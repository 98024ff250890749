import YamlAgno.Library.PyText
import Mathlib.Data.List.Infix
import Mathlib.Algebra.Group.Nat.Defs

/-!
# Percent escapes

`urllib.parse.unquote`: every run of ASCII characters of a text is turned into bytes, an escape
`%XX` into the byte that it stands for and every other character into itself, and the bytes are
decoded as UTF-8; what they do not encode becomes the replacement character.

A text is never longer after it, and shorter if it has an escape, so it is the same text exactly
if it has none (`unquote_eq_self_iff`).
-/

namespace UrlText

/-! ## UTF-8 with replacement -/

/-- The bytes that follow a first byte, and the bounds of the second. -/
def continuation (b : ℕ) : ℕ × ℕ × ℕ :=
  if b < 0xC2 then (0, 0, 0)
  else if b < 0xE0 then (1, 0x80, 0xBF)
  else if b = 0xE0 then (2, 0xA0, 0xBF)
  else if b = 0xED then (2, 0x80, 0x9F)
  else if b < 0xF0 then (2, 0x80, 0xBF)
  else if b = 0xF0 then (3, 0x90, 0xBF)
  else if b < 0xF4 then (3, 0x80, 0xBF)
  else if b = 0xF4 then (3, 0x80, 0x8F)
  else (0, 0, 0)

/-- The bytes after a first byte that may follow it, as many as there are. -/
def tail (b : ℕ) : List ℕ → List ℕ
  | [] => []
  | c :: cs =>
      let (count, low, high) := continuation b
      if 1 ≤ count ∧ low ≤ c ∧ c ≤ high then
        c :: (cs.take (count - 1)).takeWhile fun d => 0x80 ≤ d ∧ d ≤ 0xBF
      else []

/-- The first character of some bytes, and the number of bytes after the first that it takes. -/
def decodeFirst (b : ℕ) (bs : List ℕ) : Char × ℕ :=
  if b < 0x80 then (Char.ofNat b, 0)
  else
    let count := (continuation b).1
    let rest := tail b bs
    if 1 ≤ count ∧ rest.length = count then
      (Char.ofNat (rest.foldl (fun code c => 64 * code + c % 64) (b % 2 ^ (6 - count))), count)
    else ('\uFFFD', rest.length)

/-- `bytes.decode("utf-8", "replace")`; the counter skips what the last character has taken. -/
def decodeFrom : ℕ → List ℕ → List Char
  | _, [] => []
  | skip + 1, _ :: bs => decodeFrom skip bs
  | 0, b :: bs => (decodeFirst b bs).1 :: decodeFrom (decodeFirst b bs).2 bs

theorem length_decodeFrom_le (skip : ℕ) (bs : List ℕ) :
    (decodeFrom skip bs).length ≤ bs.length := by
  induction bs generalizing skip with
  | nil => simp [decodeFrom]
  | cons b bs ih =>
      cases skip with
      | zero =>
          rw [decodeFrom, List.length_cons, List.length_cons]
          exact Nat.succ_le_succ (ih _)
      | succ skip =>
          rw [decodeFrom, List.length_cons]
          exact (ih skip).trans (Nat.le_succ _)

/-- ASCII bytes are the characters that they stand for. -/
theorem decodeFrom_ascii
    {text : List Char}
    (h : ∀ c ∈ text, c.toNat < 0x80) :
    decodeFrom 0 (text.map Char.toNat) = text := by
  induction text with
  | nil => rfl
  | cons c text ih =>
      rw [List.forall_mem_cons] at h
      rw [List.map_cons, decodeFrom, decodeFirst, if_pos h.1, Char.ofNat_toNat, ih h.2]

/-! ## Escapes -/

/-- The value of a hexadecimal digit. -/
def hexValue (c : Char) : Option ℕ :=
  if '0' ≤ c ∧ c ≤ '9' then some (c.toNat - 48)
  else if 'A' ≤ c ∧ c ≤ 'F' then some (c.toNat - 55)
  else if 'a' ≤ c ∧ c ≤ 'f' then some (c.toNat - 87)
  else none

/-- The byte that three characters stand for, if they are an escape. -/
def escaped (c a b : Char) : Option ℕ :=
  if c = '%' then do
    let high ← hexValue a
    let low ← hexValue b
    return 16 * high + low
  else none

/-- There is an escape in the text. -/
def HasEscape (text : List Char) : Prop :=
  ∃ c a b, (escaped c a b).isSome = true ∧ [c, a, b] <:+: text

/-- `unquote_to_bytes`. -/
def unquoteToBytes : List Char → List ℕ
  | c :: a :: b :: rest =>
      match escaped c a b with
      | some byte => byte :: unquoteToBytes rest
      | none => c.toNat :: unquoteToBytes (a :: b :: rest)
  | text => text.map Char.toNat

/-- `unquote`, with the run of ASCII characters that has been read. -/
def unquoteFrom (run : List Char) : List Char → List Char
  | [] => decodeFrom 0 (unquoteToBytes run)
  | c :: cs =>
      if c.toNat < 0x80 then unquoteFrom (run ++ [c]) cs
      else decodeFrom 0 (unquoteToBytes run) ++ c :: unquoteFrom [] cs

/-- `urllib.parse.unquote`. -/
def unquote (text : List Char) : List Char :=
  unquoteFrom [] text

example :
    unquote "p%40ss %C3%A9 %zz".toList = "p@ss \u00E9 %zz".toList := by
  decide

theorem HasEscape.mono
    {text text' : List Char}
    (h : HasEscape text)
    (hwithin : text <:+: text') :
    HasEscape text' := by
  obtain ⟨c, a, b, hescaped, hmem⟩ := h
  exact ⟨c, a, b, hescaped, hmem.trans hwithin⟩

theorem hasEscape_cons_iff
    {c a b : Char}
    {rest : List Char} :
    HasEscape (c :: a :: b :: rest) ↔
      (escaped c a b).isSome = true ∨ HasEscape (a :: b :: rest) := by
  constructor
  · rintro ⟨c', a', b', hescaped, hmem⟩
    rcases List.infix_cons_iff.mp hmem with hfront | hrest
    · simp only [List.cons_prefix_cons, List.nil_prefix, and_true] at hfront
      obtain ⟨rfl, rfl, rfl⟩ := hfront
      exact .inl hescaped
    · exact .inr ⟨c', a', b', hescaped, hrest⟩
  · rintro (hescaped | hrest)
    · exact ⟨c, a, b, hescaped, [], rest, rfl⟩
    · exact hrest.mono (List.infix_cons (List.infix_refl _))

theorem ascii_of_hexValue
    {c : Char}
    (h : (hexValue c).isSome = true) :
    c.toNat < 0x80 := by
  have hle : ∀ d : Char, c ≤ d → c.toNat ≤ d.toNat := fun d hd => hd
  rw [hexValue] at h
  split_ifs at h with hdigit hupper hlower
  · exact (hle '9' hdigit.2).trans_lt (by decide)
  · exact (hle 'F' hupper.2).trans_lt (by decide)
  · exact (hle 'f' hlower.2).trans_lt (by decide)
  · cases h

/-- The characters of an escape are ASCII. -/
theorem ascii_of_escaped
    {c a b : Char}
    (h : (escaped c a b).isSome = true) :
    ∀ d ∈ [c, a, b], d.toNat < 0x80 := by
  rw [escaped] at h
  split_ifs at h with hc
  · rw [List.forall_mem_cons, List.forall_mem_cons, List.forall_mem_singleton]
    cases ha : hexValue a with
    | none => simp [ha] at h
    | some high =>
        cases hb : hexValue b with
        | none => simp [ha, hb] at h
        | some low =>
            exact ⟨by rw [hc]; decide, ascii_of_hexValue (by simp [ha]),
              ascii_of_hexValue (by simp [hb])⟩
  · cases h

/-! ## What an escape changes -/

theorem unquoteToBytes_of_not_hasEscape
    {text : List Char}
    (h : ¬ HasEscape text) :
    unquoteToBytes text = text.map Char.toNat := by
  induction text using unquoteToBytes.induct with
  | case1 c a b rest byte hbyte _ =>
      exact absurd (hasEscape_cons_iff.mpr (.inl (by simp [hbyte]))) h
  | case2 c a b rest hbyte ih =>
      rw [unquoteToBytes, hbyte, List.map_cons,
        ih fun hrest => h (hasEscape_cons_iff.mpr (.inr hrest))]
  | case3 text hshort =>
      rw [unquoteToBytes]
      exact hshort

theorem length_unquoteToBytes_le (text : List Char) :
    (unquoteToBytes text).length ≤ text.length := by
  induction text using unquoteToBytes.induct with
  | case1 c a b rest byte hbyte ih =>
      rw [unquoteToBytes, hbyte]
      simp only [List.length_cons]
      omega
  | case2 c a b rest hbyte ih =>
      rw [unquoteToBytes, hbyte, List.length_cons, List.length_cons]
      exact Nat.succ_le_succ ih
  | case3 text hshort =>
      rw [unquoteToBytes]
      · exact (List.length_map _).le
      · exact hshort

/-- An escape becomes one byte. -/
theorem length_unquoteToBytes_lt
    {text : List Char}
    (h : HasEscape text) :
    (unquoteToBytes text).length < text.length := by
  induction text using unquoteToBytes.induct with
  | case1 c a b rest byte hbyte _ =>
      have hrest := length_unquoteToBytes_le rest
      rw [unquoteToBytes, hbyte]
      simp only [List.length_cons]
      omega
  | case2 c a b rest hbyte ih =>
      have hrest : HasEscape (a :: b :: rest) :=
        (hasEscape_cons_iff.mp h).resolve_left (by simp [hbyte])
      rw [unquoteToBytes, hbyte, List.length_cons, List.length_cons]
      exact Nat.succ_lt_succ (ih hrest)
  | case3 text hshort =>
      obtain ⟨c, a, b, -, hmem⟩ := h
      have hlong : 3 ≤ text.length := hmem.length_le
      match text, hlong with
      | x :: y :: z :: rest, _ => exact (hshort x y z rest rfl).elim

/-- A character that is not ASCII ends every escape. -/
theorem hasEscape_append_cons
    {run cs : List Char}
    {c : Char}
    (hc : ¬ c.toNat < 0x80)
    (h : HasEscape (run ++ c :: cs)) :
    HasEscape run ∨ HasEscape cs := by
  obtain ⟨c', a, b, hescaped, hmem⟩ := h
  have hnot : c ∉ [c', a, b] := fun hc' => hc (ascii_of_escaped hescaped c hc')
  rcases PyText.infix_append_sep hnot hmem with hrun | hcs
  · exact .inl ⟨c', a, b, hescaped, hrun⟩
  · exact .inr ⟨c', a, b, hescaped, hcs⟩

theorem length_decoded_le (run : List Char) :
    (decodeFrom 0 (unquoteToBytes run)).length ≤ run.length :=
  (length_decodeFrom_le 0 _).trans (length_unquoteToBytes_le run)

theorem length_unquoteFrom_le (run text : List Char) :
    (unquoteFrom run text).length ≤ run.length + text.length := by
  induction text generalizing run with
  | nil =>
      rw [unquoteFrom]
      exact length_decoded_le run
  | cons c text ih =>
      rw [unquoteFrom]
      split_ifs with hc
      · have h := ih (run ++ [c])
        simp only [List.length_append, List.length_cons, List.length_nil] at h ⊢
        omega
      · have hrun := length_decoded_le run
        have htext := ih []
        simp only [List.length_append, List.length_cons, List.length_nil] at htext ⊢
        omega

theorem length_unquoteFrom_lt
    {run text : List Char}
    (h : HasEscape (run ++ text)) :
    (unquoteFrom run text).length < run.length + text.length := by
  induction text generalizing run with
  | nil =>
      rw [List.append_nil] at h
      rw [unquoteFrom]
      exact (length_decodeFrom_le 0 _).trans_lt (length_unquoteToBytes_lt h)
  | cons c text ih =>
      rw [unquoteFrom]
      split_ifs with hc
      · have hmore : HasEscape (run ++ [c] ++ text) := by
          rw [List.append_assoc]
          exact h
        have hlt := ih hmore
        simp only [List.length_append, List.length_cons, List.length_nil] at hlt ⊢
        omega
      · have hrun := length_decoded_le run
        have htext := length_unquoteFrom_le [] text
        simp only [List.length_append, List.length_cons, List.length_nil] at htext ⊢
        rcases hasEscape_append_cons hc h with hescape | hescape
        · have hlt := (length_decodeFrom_le 0 _).trans_lt (length_unquoteToBytes_lt hescape)
          omega
        · have hlt := ih (show HasEscape ([] ++ text) from hescape)
          simp only [List.length_nil] at hlt
          omega

theorem unquoteFrom_of_not_hasEscape
    {run text : List Char}
    (hrun : ∀ c ∈ run, c.toNat < 0x80)
    (h : ¬ HasEscape (run ++ text)) :
    unquoteFrom run text = run ++ text := by
  induction text generalizing run with
  | nil =>
      rw [List.append_nil] at h ⊢
      rw [unquoteFrom, unquoteToBytes_of_not_hasEscape h, decodeFrom_ascii hrun]
  | cons c text ih =>
      rw [unquoteFrom]
      split_ifs with hc
      · have hmore : run ++ [c] ++ text = run ++ c :: text := by
          rw [List.append_assoc, List.singleton_append]
        have hascii : ∀ d ∈ run ++ [c], d.toNat < 0x80 := by
          rw [List.forall_mem_append, List.forall_mem_singleton]
          exact ⟨hrun, hc⟩
        rw [ih hascii (hmore ▸ h), hmore]
      · have hfront : ¬ HasEscape run := fun hrun => h (hrun.mono (List.infix_append' [] _ _))
        have hback : ¬ HasEscape text := fun htext =>
          h (htext.mono ⟨run ++ [c], [], by simp⟩)
        rw [unquoteToBytes_of_not_hasEscape hfront, decodeFrom_ascii hrun,
          ih (List.forall_mem_nil _) hback, List.nil_append]

theorem length_unquote_le (text : List Char) :
    (unquote text).length ≤ text.length := by
  rw [unquote]
  simpa using length_unquoteFrom_le [] text

/-- A text is its own unquoted form exactly if it has no escape. -/
theorem unquote_eq_self_iff (text : List Char) :
    unquote text = text ↔ ¬ HasEscape text := by
  constructor
  · intro h hescape
    have hlt := length_unquoteFrom_lt (show HasEscape ([] ++ text) from hescape)
    rw [List.length_nil, Nat.zero_add] at hlt
    exact absurd (congrArg List.length h) hlt.ne
  · intro h
    exact unquoteFrom_of_not_hasEscape (List.forall_mem_nil _) h

end UrlText
