import YamlAgno.Library.JsonStrings

/-!
# The text of a JSON tree

What `json.dumps` writes with compact separators, in ASCII.  Numbers and words have no delimiter
in them, and a delimiter or the end follows them.

A text is therefore that of one tree only (`text_injective`), as long as floats are written as
Python writes them (`Valid`).
-/

namespace PyDocument
namespace Json

/-! ## Trees -/

/-- `int.__repr__`. -/
def intText (n : ℤ) : List Char :=
  if n < 0 then '-' :: Nat.toDigits 10 n.natAbs else Nat.toDigits 10 n.natAbs

mutual

/-- `json.dumps(tree, separators=(",", ":"))`. -/
def text : Json → List Char
  | .null => ['n', 'u', 'l', 'l']
  | .bool true => ['t', 'r', 'u', 'e']
  | .bool false => ['f', 'a', 'l', 's', 'e']
  | .int n => intText n
  | .float repr => (jsonFloat repr).toList
  | .string value => quoted value
  | .array [] => ['[', ']']
  | .array (item :: items) => '[' :: (text item ++ textItems items)
  | .object [] => ['\x7b', '\x7d']
  | .object ((name, member) :: members) =>
      '\x7b' :: (quoted name ++ ':' :: (text member ++ textMembers members))

/-- What follows an item. -/
def textItems : List Json → List Char
  | [] => [']']
  | item :: items => ',' :: (text item ++ textItems items)

/-- What follows a member. -/
def textMembers : List (String × Json) → List Char
  | [] => ['\x7d']
  | (name, member) :: members =>
      ',' :: (quoted name ++ ':' :: (text member ++ textMembers members))

end

/-- A text as `float.__repr__` writes it: with a point or an exponent, or one of three words. -/
def IsFloatRepr (repr : String) : Prop :=
  repr ∈ ["nan", "inf", "-inf"] ∨
    (∀ c ∈ repr.toList, c.isDigit = true ∨ c ∈ ['-', '+', '.', 'e']) ∧
      ∃ c ∈ repr.toList, c = '.' ∨ c = 'e'

theorem isFloatRepr_iff
    (repr : String) :
    IsFloatRepr repr ↔ repr ∈ ["nan", "inf", "-inf"] ∨
      repr.toList.all (fun c => c.isDigit || ['-', '+', '.', 'e'].contains c) = true ∧
        repr.toList.any (fun c => c == '.' || c == 'e') = true := by
  simp [IsFloatRepr]

instance (repr : String) : Decidable (IsFloatRepr repr) :=
  decidable_of_iff _ (isFloatRepr_iff repr).symm

/-- Floats are written as floats, and the names of an object are distinct, at every depth. -/
inductive Valid : Json → Prop where
  | null : Valid .null
  | bool (value : Bool) : Valid (.bool value)
  | int (value : ℤ) : Valid (.int value)
  | float {repr : String} (h : IsFloatRepr repr) : Valid (.float repr)
  | string (value : String) : Valid (.string value)
  | array {items : List Json} (h : ∀ item ∈ items, Valid item) : Valid (.array items)
  | object
      {members : List (String × Json)}
      (names : (members.map Prod.fst).Nodup)
      (h : ∀ member ∈ members, Valid member.2) :
      Valid (.object members)

/-! ### Words and numbers -/

/-- The delimiter that a tree begins with; words and numbers have none. -/
def opener : Json → Option Char
  | .null | .bool _ | .int _ | .float _ => none
  | .string _ => some '"'
  | .array _ => some '['
  | .object _ => some '\x7b'

/-- The characters of words and numbers. -/
def isAtomChar (c : Char) : Bool :=
  c.isAlphanum || c == '-' || c == '+' || c == '.'

/-- The integer that a text is. -/
def readInt : List Char → ℤ
  | '-' :: digits => -(Nat.ofDigitChars 10 digits 0 : ℤ)
  | digits => (Nat.ofDigitChars 10 digits 0 : ℤ)

/-- The float that a text is. -/
def readFloat (cs : List Char) : String :=
  if cs = "NaN".toList then "nan"
  else if cs = "Infinity".toList then "inf"
  else if cs = "-Infinity".toList then "-inf"
  else String.ofList cs

/-- The word or number that a text is. -/
def readAtom (cs : List Char) : Json :=
  if cs = text .null then .null
  else if cs = text (.bool true) then .bool true
  else if cs = text (.bool false) then .bool false
  else if cs.all (fun c => c.isDigit || c == '-') then .int (readInt cs)
  else .float (readFloat cs)

theorem mem_intText
    {n : ℤ}
    {c : Char}
    (h : c ∈ intText n) :
    c = '-' ∨ c.isDigit = true := by
  have hdigit : ∀ c ∈ Nat.toDigits 10 n.natAbs, c.isDigit = true := fun c hc =>
    Nat.isDigit_of_mem_toDigits (by decide) (by decide) hc
  rw [intText] at h
  split_ifs at h with hneg
  · rcases List.mem_cons.mp h with rfl | h
    · exact .inl rfl
    · exact .inr (hdigit c h)
  · exact .inr (hdigit c h)

theorem intText_ne_nil (n : ℤ) :
    intText n ≠ [] := by
  rw [intText]
  split_ifs
  · exact List.cons_ne_nil _ _
  · exact Nat.toDigits_ne_nil

theorem readInt_intText (n : ℤ) :
    readInt (intText n) = n := by
  rw [intText]
  split_ifs with hneg
  · rw [readInt, Nat.ofDigitChars_ten_toDigits]
    omega
  · rw [readInt.eq_2, Nat.ofDigitChars_ten_toDigits]
    · omega
    · intro digits heq
      have hminus : '-' ∈ Nat.toDigits 10 n.natAbs := by
        rw [heq]
        exact List.mem_cons_self
      exact absurd (Nat.isDigit_of_mem_toDigits (by decide) (by decide) hminus) (by decide)

/-- A float that is no word is written as it is. -/
theorem jsonFloat_of_decimal
    {repr : String}
    (hchars : ∀ c ∈ repr.toList, c.isDigit = true ∨ c ∈ ['-', '+', '.', 'e']) :
    jsonFloat repr = repr ∧ readFloat repr.toList = repr := by
  have hne : ∀ word : String, 'n' ∈ word.toList ∨ 'N' ∈ word.toList → repr ≠ word := by
    rintro word hword rfl
    rcases hword with hn | hn
    · exact absurd (hchars _ hn) (by decide)
    · exact absurd (hchars _ hn) (by decide)
  have hchars_ne : ∀ word : String, 'n' ∈ word.toList ∨ 'N' ∈ word.toList →
      repr.toList ≠ word.toList := fun word hword heq => hne word hword (String.toList_inj.mp heq)
  constructor
  · rw [jsonFloat, if_neg (hne "nan" (by decide)), if_neg (hne "inf" (by decide)),
      if_neg (hne "-inf" (by decide))]
  · rw [readFloat, if_neg (hchars_ne "NaN" (by decide)), if_neg (hchars_ne "Infinity" (by decide)),
      if_neg (hchars_ne "-Infinity" (by decide)), String.ofList_toList]

/-- A text with no letter that a word begins with is a number. -/
theorem readAtom_of_no_word
    {cs : List Char}
    (h : ∀ c ∈ cs, c ∉ ['n', 't', 'f']) :
    readAtom cs =
      if cs.all (fun c => c.isDigit || c == '-') then .int (readInt cs)
      else .float (readFloat cs) := by
  have hne : ∀ c ∈ ['n', 't', 'f'], ∀ rest, cs ≠ c :: rest := by
    rintro c hc rest rfl
    exact h c List.mem_cons_self hc
  rw [readAtom, text, text, text, if_neg (hne 'n' (by decide) _),
    if_neg (hne 't' (by decide) _), if_neg (hne 'f' (by decide) _)]

theorem readAtom_intText (n : ℤ) :
    readAtom (intText n) = .int n := by
  have hword : ∀ c ∈ intText n, c ∉ ['n', 't', 'f'] := by
    intro c hc hmem
    have hnot : ∀ c ∈ ['n', 't', 'f'], ¬ (c = '-' ∨ c.isDigit = true) := by simp
    exact hnot c hmem (mem_intText hc)
  have hall : (intText n).all (fun c => c.isDigit || c == '-') = true := by
    rw [List.all_eq_true]
    intro c hc
    rcases mem_intText hc with rfl | hdigit
    · rfl
    · rw [hdigit, Bool.true_or]
  rw [readAtom_of_no_word hword, if_pos hall, readInt_intText]

/-- A decimal number has a point or an exponent, which no integer has. -/
theorem readAtom_decimal
    {repr : String}
    (hchars : ∀ c ∈ repr.toList, c.isDigit = true ∨ c ∈ ['-', '+', '.', 'e'])
    (hpoint : ∃ c ∈ repr.toList, c = '.' ∨ c = 'e') :
    readAtom (jsonFloat repr).toList = .float repr := by
  obtain ⟨hsame, hread⟩ := jsonFloat_of_decimal hchars
  have hword : ∀ c ∈ repr.toList, c ∉ ['n', 't', 'f'] := by
    intro c hc hmem
    have hnot : ∀ c ∈ ['n', 't', 'f'],
        ¬ (c.isDigit = true ∨ c ∈ ['-', '+', '.', 'e']) := by
      simp
    exact hnot c hmem (hchars c hc)
  have hall : ¬ repr.toList.all (fun c => c.isDigit || c == '-') = true := by
    intro hall
    obtain ⟨c, hc, hpoint⟩ := hpoint
    have hdigit := List.all_eq_true.mp hall c hc
    rcases hpoint with rfl | rfl
    · exact absurd hdigit (by decide)
    · exact absurd hdigit (by decide)
  rw [hsame, readAtom_of_no_word hword, if_neg hall, hread]

/-- A word or a number is read back. -/
theorem readAtom_text
    {j : Json}
    (hatom : opener j = none)
    (hvalid : Valid j) :
    readAtom (text j) = j := by
  cases hvalid with
  | null => rfl
  | bool value => cases value <;> rfl
  | int n =>
      rw [text]
      exact readAtom_intText n
  | @float repr h =>
      rw [text]
      rcases h with hword | ⟨hchars, hpoint⟩
      · simp only [List.mem_cons, List.not_mem_nil, or_false] at hword
        rcases hword with rfl | rfl | rfl <;> rfl
      · exact readAtom_decimal hchars hpoint
  | string _ => cases hatom
  | array _ => cases hatom
  | object _ _ => cases hatom

/-- Words and numbers have no delimiter in them. -/
theorem isAtomChar_of_mem_text
    {j : Json}
    (hatom : opener j = none)
    (hvalid : Valid j)
    {c : Char}
    (hc : c ∈ text j) :
    isAtomChar c = true := by
  have hdigit : ∀ {d : Char}, d.isDigit = true → isAtomChar d = true := by
    intro d hd
    simp [isAtomChar, Char.isAlphanum, hd]
  cases hvalid with
  | null =>
      have hall : (text .null).all isAtomChar = true := by decide
      exact List.all_eq_true.mp hall c hc
  | bool value =>
      have hall : (text (.bool value)).all isAtomChar = true := by cases value <;> decide
      exact List.all_eq_true.mp hall c hc
  | int n =>
      simp only [text] at hc
      rcases mem_intText hc with rfl | hd
      · rfl
      · exact hdigit hd
  | @float repr h =>
      simp only [text] at hc
      rcases h with hword | ⟨hchars, -⟩
      · have hall : ["nan", "inf", "-inf"].all
            (fun word => (jsonFloat word).toList.all isAtomChar) = true := by
          decide
        exact List.all_eq_true.mp (List.all_eq_true.mp hall repr hword) c hc
      · rw [(jsonFloat_of_decimal hchars).1] at hc
        rcases hchars c hc with hd | hsign
        · exact hdigit hd
        · have hall : ['-', '+', '.', 'e'].all isAtomChar = true := by decide
          exact List.all_eq_true.mp hall c hsign
  | string _ => cases hatom
  | array _ => cases hatom
  | object _ _ => cases hatom

theorem text_ne_nil
    {j : Json}
    (hatom : opener j = none)
    (hvalid : Valid j) :
    text j ≠ [] := by
  cases hvalid with
  | null => exact List.cons_ne_nil _ _
  | bool value => cases value <;> exact List.cons_ne_nil _ _
  | int n => exact intText_ne_nil n
  | @float repr h =>
      simp only [text]
      rcases h with hword | ⟨hchars, c, hc, -⟩
      · have hall : ∀ word ∈ ["nan", "inf", "-inf"], (jsonFloat word).toList ≠ [] := by decide
        exact hall repr hword
      · rw [(jsonFloat_of_decimal hchars).1]
        exact List.ne_nil_of_mem hc
  | string _ => cases hatom
  | array _ => cases hatom
  | object _ _ => cases hatom

/-! ### What a text begins with -/

/-- Nothing that would continue a word or a number. -/
def Ends (rest : List Char) : Prop :=
  ∀ c ∈ rest.head?, isAtomChar c = false

theorem head?_text_of_opener
    {j : Json}
    {d : Char}
    (h : opener j = some d)
    (x : List Char) :
    (text j ++ x).head? = some d := by
  cases j with
  | null => cases h
  | bool _ => cases h
  | int _ => cases h
  | float _ => cases h
  | string value =>
      simp only [text, quoted]
      exact h
  | array items => cases items <;> exact h
  | object members => cases members <;> exact h

theorem head?_text_of_atom
    {j : Json}
    (hatom : opener j = none)
    (hvalid : Valid j)
    (x : List Char) :
    ∃ c, (text j ++ x).head? = some c ∧ isAtomChar c = true := by
  obtain ⟨c, cs, htext⟩ := List.exists_cons_of_ne_nil (text_ne_nil hatom hvalid)
  refine ⟨c, by rw [htext, List.cons_append, List.head?_cons], ?_⟩
  exact isAtomChar_of_mem_text hatom hvalid (by rw [htext]; exact List.mem_cons_self)

theorem opener_eq
    {j j' : Json}
    {x y : List Char}
    (hj : Valid j)
    (hj' : Valid j')
    (h : text j ++ x = text j' ++ y) :
    opener j = opener j' := by
  have hopener : ∀ (j : Json) d, opener j = some d → isAtomChar d = false := by
    rintro (_ | _ | _ | _ | _ | _ | _) d hd <;> cases hd <;> rfl
  cases ho : opener j with
  | none =>
      cases ho' : opener j' with
      | none => rfl
      | some d' =>
          obtain ⟨c, hc, hchar⟩ := head?_text_of_atom ho hj x
          rw [h, head?_text_of_opener ho'] at hc
          rw [← Option.some.inj hc, hopener j' d' ho'] at hchar
          cases hchar
  | some d =>
      have hd := head?_text_of_opener ho x
      cases ho' : opener j' with
      | none =>
          obtain ⟨c, hc, hchar⟩ := head?_text_of_atom ho' hj' y
          rw [← h, hd] at hc
          rw [← Option.some.inj hc, hopener j d ho] at hchar
          cases hchar
      | some d' =>
          rw [h, head?_text_of_opener ho'] at hd
          exact hd.symm

/-- An item is not the end of its array. -/
theorem head?_text_ne
    {j : Json}
    (hj : Valid j)
    (x : List Char) :
    (text j ++ x).head? ≠ some ']' := by
  intro h
  cases ho : opener j with
  | none =>
      obtain ⟨c, hc, hchar⟩ := head?_text_of_atom ho hj x
      rw [h] at hc
      cases hc
      cases hchar
  | some d =>
      rw [head?_text_of_opener ho] at h
      cases h
      cases j <;> cases ho

/-- A word or a number ends where it cannot be continued. -/
theorem atom_append_inj
    {a b x y : List Char}
    (ha : ∀ c ∈ a, isAtomChar c = true)
    (hb : ∀ c ∈ b, isAtomChar c = true)
    (hx : Ends x)
    (hy : Ends y)
    (h : a ++ x = b ++ y) :
    a = b ∧ x = y := by
  rcases List.append_eq_append_iff.mp h with ⟨m, rfl, rfl⟩ | ⟨m, rfl, rfl⟩
  · cases m with
    | nil => exact ⟨(List.append_nil a).symm, rfl⟩
    | cons c m =>
        have hc := hb c (by simp)
        rw [hx c rfl] at hc
        cases hc
  · cases m with
    | nil => exact ⟨List.append_nil b, rfl⟩
    | cons c m =>
        have hc := ha c (by simp)
        rw [hy c rfl] at hc
        cases hc

/-! ### A text is that of one tree -/

/-- The text of a tree shows which tree it is, and where it ends. -/
def TextDetermines (j : Json) : Prop :=
  ∀ j', Valid j' → ∀ x y, Ends x → Ends y → text j ++ x = text j' ++ y → j = j' ∧ x = y

theorem ends_textItems
    (items : List Json)
    (x : List Char) :
    Ends (textItems items ++ x) := by
  cases items <;> (rintro c ⟨⟩; rfl)

theorem ends_textMembers
    (members : List (String × Json))
    (x : List Char) :
    Ends (textMembers members ++ x) := by
  rcases members with _ | ⟨⟨name, member⟩, members⟩ <;> (rintro c ⟨⟩; rfl)

theorem textItems_append_inj
    {items : List Json}
    (h : ∀ item ∈ items, TextDetermines item)
    {items' : List Json}
    (hvalid : ∀ item ∈ items', Valid item)
    {x y : List Char}
    (htext : textItems items ++ x = textItems items' ++ y) :
    items = items' ∧ x = y := by
  induction items generalizing items' with
  | nil =>
      cases items' with
      | nil => simpa [textItems] using htext
      | cons item' items' => simp [textItems] at htext
  | cons item items ih =>
      rw [List.forall_mem_cons] at h
      cases items' with
      | nil => simp [textItems] at htext
      | cons item' items' =>
          rw [List.forall_mem_cons] at hvalid
          simp only [textItems, List.cons_append, List.append_assoc, List.cons.injEq,
            true_and] at htext
          obtain ⟨rfl, hrest⟩ := h.1 item' hvalid.1 _ _ (ends_textItems items x)
            (ends_textItems items' y) htext
          obtain ⟨rfl, hxy⟩ := ih h.2 hvalid.2 hrest
          exact ⟨rfl, hxy⟩

theorem textMembers_append_inj
    {members : List (String × Json)}
    (h : ∀ member ∈ members, TextDetermines member.2)
    {members' : List (String × Json)}
    (hvalid : ∀ member ∈ members', Valid member.2)
    {x y : List Char}
    (htext : textMembers members ++ x = textMembers members' ++ y) :
    members = members' ∧ x = y := by
  induction members generalizing members' with
  | nil =>
      cases members' with
      | nil => simpa [textMembers] using htext
      | cons member' members' => simp [textMembers] at htext
  | cons member members ih =>
      obtain ⟨name, member⟩ := member
      rw [List.forall_mem_cons] at h
      cases members' with
      | nil => simp [textMembers] at htext
      | cons member' members' =>
          obtain ⟨name', member'⟩ := member'
          rw [List.forall_mem_cons] at hvalid
          simp only [textMembers, List.cons_append, List.append_assoc, List.cons.injEq,
            true_and] at htext
          obtain ⟨rfl, hmember⟩ := quoted_append_inj htext
          rw [List.cons.injEq] at hmember
          obtain ⟨rfl, hrest⟩ := h.1 member' hvalid.1 _ _ (ends_textMembers members x)
            (ends_textMembers members' y) hmember.2
          obtain ⟨rfl, hxy⟩ := ih h.2 hvalid.2 hrest
          exact ⟨rfl, hxy⟩

theorem textDetermines_of_atom
    {j : Json}
    (hatom : opener j = none)
    (hj : Valid j) :
    TextDetermines j := by
  intro j' hj' x y hx hy h
  have hatom' : opener j' = none := (opener_eq hj hj' h).symm.trans hatom
  obtain ⟨htext, hxy⟩ := atom_append_inj (fun c hc => isAtomChar_of_mem_text hatom hj hc)
    (fun c hc => isAtomChar_of_mem_text hatom' hj' hc) hx hy h
  refine ⟨?_, hxy⟩
  rw [← readAtom_text hatom hj, htext, readAtom_text hatom' hj']

theorem textDetermines_array
    {items : List Json}
    (hitems : ∀ item ∈ items, Valid item)
    (ih : ∀ item ∈ items, TextDetermines item) :
    TextDetermines (.array items) := by
  intro j' hj' x y _ _ h
  have ho := opener_eq (.array hitems) hj' h
  cases hj' with
  | @array items' hitems' =>
      cases items with
      | nil =>
          cases items' with
          | nil => simpa [text] using h
          | cons item' items' =>
              simp only [text, List.cons_append, List.nil_append, List.append_assoc,
                List.cons.injEq, true_and] at h
              exact absurd (congrArg List.head? h).symm
                (head?_text_ne (hitems' item' List.mem_cons_self) _)
      | cons item items =>
          cases items' with
          | nil =>
              simp only [text, List.cons_append, List.nil_append, List.append_assoc,
                List.cons.injEq, true_and] at h
              exact absurd (congrArg List.head? h)
                (head?_text_ne (hitems item List.mem_cons_self) _)
          | cons item' items' =>
              -- The items follow one another as after a first one.
              have htail : textItems (item :: items) ++ x =
                  textItems (item' :: items') ++ y := by
                simp only [text, List.cons_append, List.cons.injEq, true_and] at h
                simp only [textItems, List.cons_append, h]
              obtain ⟨heq, hxy⟩ := textItems_append_inj ih hitems' htail
              exact ⟨by rw [heq], hxy⟩
  | _ => cases ho

theorem textDetermines_object
    {members : List (String × Json)}
    (hnames : (members.map Prod.fst).Nodup)
    (hmembers : ∀ member ∈ members, Valid member.2)
    (ih : ∀ member ∈ members, TextDetermines member.2) :
    TextDetermines (.object members) := by
  intro j' hj' x y _ _ h
  have ho := opener_eq (.object hnames hmembers) hj' h
  cases hj' with
  | @object members' hnames' hmembers' =>
      rcases members with _ | ⟨⟨name, member⟩, members⟩
      · rcases members' with _ | ⟨⟨name', member'⟩, members'⟩
        · simpa [text] using h
        · simp [text, quoted] at h
      · rcases members' with _ | ⟨⟨name', member'⟩, members'⟩
        · simp [text, quoted] at h
        · have htail : textMembers ((name, member) :: members) ++ x =
              textMembers ((name', member') :: members') ++ y := by
            simp only [text, List.cons_append, List.cons.injEq, true_and] at h
            simp only [textMembers, List.cons_append, h]
          obtain ⟨heq, hxy⟩ := textMembers_append_inj ih hmembers' htail
          exact ⟨by rw [heq], hxy⟩
  | _ => cases ho

theorem textDetermines
    {j : Json}
    (hj : Valid j) :
    TextDetermines j := by
  induction hj with
  | null => exact textDetermines_of_atom rfl .null
  | bool value => exact textDetermines_of_atom rfl (.bool value)
  | int n => exact textDetermines_of_atom rfl (.int n)
  | float h => exact textDetermines_of_atom rfl (.float h)
  | string value =>
      intro j' hj' x y _ _ h
      have ho := opener_eq (.string value) hj' h
      cases hj' with
      | string value' =>
          simp only [text] at h
          obtain ⟨rfl, hxy⟩ := quoted_append_inj h
          exact ⟨rfl, hxy⟩
      | _ => cases ho
  | array hitems ih => exact textDetermines_array hitems ih
  | object hnames hmembers ih => exact textDetermines_object hnames hmembers ih

/-- Two trees have one text only if they are one tree. -/
theorem text_injective
    {j j' : Json}
    (hj : Valid j)
    (hj' : Valid j')
    (h : text j = text j') :
    j = j' := by
  have hnil : Ends [] := fun c hc => by cases hc
  exact (textDetermines hj j' hj' [] [] hnil hnil (by rw [h])).1

end Json
end PyDocument
