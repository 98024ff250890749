import YamlAgno.Library.JsonFormat
import YamlAgno.Library.PyText

/-!
# Strings in JSON

How `json.dumps` writes a string in ASCII: in quotes, with every other character escaped, by its
UTF-16 units.  Where a string ends is seen from its text (`quoted_append_inj`).
-/

namespace PyDocument
namespace Json

/-- The escapes that have a letter. -/
def shortEscapes : List (Char × Char) :=
  [('"', '"'), ('\\', '\\'), ('\n', 'n'), ('\r', 'r'), ('\t', 't'), ('\x0c', 'f'),
    ('\x08', 'b')]

/-- Four hexadecimal digits. -/
def hex4 (n : ℕ) : List Char :=
  [Nat.digitChar (n / 4096 % 16), Nat.digitChar (n / 256 % 16), Nat.digitChar (n / 16 % 16),
    Nat.digitChar (n % 16)]

/-- The UTF-16 units of a character. -/
def utf16 (c : Char) : List ℕ :=
  let n := c.toNat
  if n < 0x10000 then [n]
  else [0xD800 + (n - 0x10000) / 1024, 0xDC00 + (n - 0x10000) % 1024]

/-- A character in a string. -/
def escape (c : Char) : List Char :=
  match shortEscapes.lookup c with
  | some letter => ['\\', letter]
  | none =>
      if ' ' ≤ c ∧ c ≤ '~' then [c]
      else (utf16 c).flatMap fun unit => '\\' :: 'u' :: hex4 unit

/-- A string in its quotes. -/
def quoted (value : String) : List Char :=
  '"' :: (value.toList.flatMap escape ++ ['"'])

theorem digitChar_inj
    {a b : ℕ}
    (ha : a < 16)
    (hb : b < 16)
    (h : Nat.digitChar a = Nat.digitChar b) :
    a = b := by
  have hall : ∀ a < 16, ∀ b < 16, Nat.digitChar a = Nat.digitChar b → a = b := by decide
  exact hall a ha b hb h

theorem hex4_append_inj
    {m n : ℕ}
    {x y : List Char}
    (hm : m < 65536)
    (hn : n < 65536)
    (h : hex4 m ++ x = hex4 n ++ y) :
    m = n ∧ x = y := by
  simp only [hex4, List.cons_append, List.nil_append, List.cons.injEq] at h
  obtain ⟨h₁, h₂, h₃, h₄, hrest⟩ := h
  have hmod : ∀ k : ℕ, k % 16 < 16 := fun k => Nat.mod_lt k (by decide)
  have h₁ := digitChar_inj (hmod _) (hmod _) h₁
  have h₂ := digitChar_inj (hmod _) (hmod _) h₂
  have h₃ := digitChar_inj (hmod _) (hmod _) h₃
  have h₄ := digitChar_inj (hmod _) (hmod _) h₄
  exact ⟨by omega, hrest⟩

/-- No character is a surrogate. -/
theorem not_surrogate (c : Char) :
    c.toNat < 0xD800 ∨ 0xDFFF < c.toNat ∧ c.toNat < 0x110000 :=
  c.valid

/-- The units of a character, one or two. -/
theorem units_append_inj
    {c d : Char}
    {x y : List Char}
    (h : ((utf16 c).flatMap fun unit => '\\' :: 'u' :: hex4 unit) ++ x =
      ((utf16 d).flatMap fun unit => '\\' :: 'u' :: hex4 unit) ++ y) :
    c = d ∧ x = y := by
  have hc := not_surrogate c
  have hd := not_surrogate d
  have hnat : c.toNat = d.toNat → c = d := fun h => Char.toNat_inj.mp h
  simp only [utf16] at h
  split_ifs at h with hc' hd' hd' <;>
    simp only [List.flatMap_cons, List.flatMap_nil, List.append_nil, List.cons_append,
      List.append_assoc, List.cons.injEq, true_and] at h
  · obtain ⟨hunit, hrest⟩ := hex4_append_inj hc' hd' h
    exact ⟨hnat hunit, hrest⟩
  · have hunit := (hex4_append_inj hc' (by omega) h).1
    omega
  · have hunit := (hex4_append_inj (by omega) hd' h).1
    omega
  · obtain ⟨hhigh, hrest⟩ := hex4_append_inj (by omega) (by omega) h
    simp only [List.cons.injEq, true_and] at hrest
    obtain ⟨hlow, hrest⟩ := hex4_append_inj (by omega) (by omega) hrest
    exact ⟨hnat (by omega), hrest⟩

theorem head?_units
    (c : Char)
    (x : List Char) :
    (((utf16 c).flatMap fun unit => '\\' :: 'u' :: hex4 unit) ++ x).head? = some '\\' := by
  simp only [utf16]
  split_ifs <;> rfl

theorem mem_shortEscapes
    {c letter : Char}
    (h : shortEscapes.lookup c = some letter) :
    (c, letter) ∈ shortEscapes := by
  obtain ⟨before, after, hsplit, -⟩ := List.lookup_eq_some_iff.mp h
  rw [hsplit]
  simp

/-- Two letters are those of two characters, and none is the `u` of the other escapes. -/
theorem shortEscapes_inj :
    ∀ item ∈ shortEscapes, item.2 ≠ 'u' ∧ ∀ item' ∈ shortEscapes, item.2 = item'.2 → item = item' := by
  decide

/-- An escape with a letter is not one of units, nor a character as it is. -/
theorem short_append_ne
    {c d letter : Char}
    {x y : List Char}
    (hc : shortEscapes.lookup c = some letter)
    (hd : shortEscapes.lookup d = none) :
    escape c ++ x ≠ escape d ++ y := by
  intro h
  simp only [escape, hc, hd] at h
  split_ifs at h with hplain
  · simp only [List.cons_append, List.nil_append, List.cons.injEq] at h
    rw [← h.1] at hd
    exact absurd hd (by decide)
  · obtain ⟨unit, units, hunits⟩ : ∃ unit units, utf16 d = unit :: units := by
      simp only [utf16]
      split_ifs <;> exact ⟨_, _, rfl⟩
    simp only [hunits, List.flatMap_cons, List.cons_append, List.nil_append,
      List.cons.injEq] at h
    exact (shortEscapes_inj _ (mem_shortEscapes hc)).1 h.2.1

/-- The text of a string shows what its first character is. -/
theorem escape_append_inj
    {c d : Char}
    {x y : List Char}
    (h : escape c ++ x = escape d ++ y) :
    c = d ∧ x = y := by
  cases hc : shortEscapes.lookup c with
  | some letter =>
      cases hd : shortEscapes.lookup d with
      | none => exact absurd h (short_append_ne hc hd)
      | some letter' =>
          simp only [escape, hc, hd, List.cons_append, List.nil_append, List.cons.injEq,
            true_and] at h
          have hitem := (shortEscapes_inj _ (mem_shortEscapes hc)).2 _ (mem_shortEscapes hd) h.1
          exact ⟨congrArg Prod.fst hitem, h.2⟩
  | none =>
      cases hd : shortEscapes.lookup d with
      | some letter' => exact absurd h.symm (short_append_ne hd hc)
      | none =>
          have hslash : ∀ {e : Char}, shortEscapes.lookup e = none → e ≠ '\\' := by
            rintro e he rfl
            exact absurd he (by decide)
          simp only [escape, hc, hd] at h
          split_ifs at h with hplain hplain' hplain'
          · simpa using h
          · have hhead := congrArg List.head? h
            rw [head?_units] at hhead
            exact absurd (Option.some.inj hhead) (hslash hc)
          · have hhead := congrArg List.head? h
            rw [head?_units] at hhead
            exact absurd (Option.some.inj hhead).symm (hslash hd)
          · exact units_append_inj h

/-- No escape begins with a quotation mark. -/
theorem head?_escape_ne
    (c : Char)
    (x : List Char) :
    (escape c ++ x).head? ≠ some '"' := by
  cases hc : shortEscapes.lookup c with
  | some letter => simp [escape, hc]
  | none =>
      simp only [escape, hc]
      split_ifs with hplain
      · rintro hquote
        rw [List.singleton_append, List.head?_cons, Option.some.injEq] at hquote
        rw [hquote] at hc
        exact absurd hc (by decide)
      · rw [head?_units]
        decide

/-- A string ends at its quotation mark. -/
theorem quoted_append_inj
    {value value' : String}
    {x y : List Char}
    (h : quoted value ++ x = quoted value' ++ y) :
    value = value' ∧ x = y := by
  have hbody : ∀ cs ds : List Char,
      cs.flatMap escape ++ '"' :: x = ds.flatMap escape ++ '"' :: y → cs = ds ∧ x = y := by
    intro cs
    induction cs with
    | nil =>
        intro ds h
        cases ds with
        | nil => simpa using h
        | cons d ds =>
            rw [List.flatMap_cons, List.append_assoc] at h
            exact absurd (congrArg List.head? h).symm (head?_escape_ne d _)
    | cons c cs ih =>
        intro ds h
        cases ds with
        | nil =>
            rw [List.flatMap_cons, List.append_assoc] at h
            exact absurd (congrArg List.head? h) (head?_escape_ne c _)
        | cons d ds =>
            rw [List.flatMap_cons, List.flatMap_cons, List.append_assoc, List.append_assoc] at h
            obtain ⟨rfl, hrest⟩ := escape_append_inj h
            obtain ⟨rfl, hxy⟩ := ih ds hrest
            exact ⟨rfl, hxy⟩
  simp only [quoted, List.cons_append, List.append_assoc, List.nil_append, List.cons.injEq,
    true_and] at h
  obtain ⟨hchars, hxy⟩ := hbody _ _ h
  exact ⟨String.toList_inj.mp hchars, hxy⟩

end Json
end PyDocument
