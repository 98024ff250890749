import YamlAgno.Di.ValueResolution
import YamlAgno.Library.TrackedText

/-!
# Two patterns for a reference

`validate_format` accepts a template in which `\$\{[a-z_]+(\.[a-z0-9_]+)*\}` is found;
`tokens` extracts the matches of `\$\{([a-z_]+)\.([a-z0-9_.]+)\}`.  The first matches a
provider without a key, and the second a key with empty segments.

`resolvesCompletely_iff` says which templates are resolved completely: the two patterns must
match at the same places.  Whether something is left of an occurrence is asked of the characters
themselves, which the loop of `resolve` carries along with their marks, and not of the text that
it returns: a value may read like a token.
-/

namespace YamlAgno

open PyText Substitution

/-- The class `[a-z0-9_]` of the pattern of `validate_format`. -/
def isSegmentChar (c : Char) : Bool :=
  isProviderChar c ∨ ('0' ≤ c ∧ c ≤ '9')

namespace DIReference

/-- A match of the pattern of `validate_format`. -/
structure Occurrence where
  provider : List Char
  segments : List (List Char)
  provider_ne : provider ≠ []
  provider_chars : ∀ c ∈ provider, isProviderChar c = true
  segments_ne : ∀ s ∈ segments, s ≠ []
  segment_chars : ∀ s ∈ segments, ∀ c ∈ s, isSegmentChar c = true

instance : DecidableEq Occurrence := fun o o' =>
  decidable_of_iff (o.provider = o'.provider ∧ o.segments = o'.segments) (by
    cases o
    cases o'
    simp)

namespace Occurrence

/-- The segments, with the dots between them. -/
def key (o : Occurrence) : List Char :=
  ['.'].intercalate o.segments

/-- What stands between the braces. -/
def fullKey (o : Occurrence) : List Char :=
  ['.'].intercalate (o.provider :: o.segments)

/-- The text of an occurrence. -/
def text (o : Occurrence) : List Char :=
  '$' :: '\x7b' :: (o.fullKey ++ ['\x7d'])

/-- The occurrence has a key. -/
def keyed (o : Occurrence) : Bool :=
  o.segments ≠ []

end Occurrence

/-- The match of the pattern of `validate_format` that a text begins with. -/
def matchFormat : List Char → Option Occurrence
  | '$' :: '\x7b' :: cs =>
      match cs.dropWhile isKeyChar, (cs.takeWhile isKeyChar).splitOn '.' with
      | '\x7d' :: _, provider :: segments =>
          if h : (provider ≠ [] ∧ provider.all isProviderChar = true) ∧
              (∀ s ∈ segments, s ≠ []) ∧ ∀ s ∈ segments, s.all isSegmentChar = true then
            some ⟨provider, segments, h.1.1, List.all_eq_true.mp h.1.2, h.2.1,
              fun s hs => List.all_eq_true.mp (h.2.2 s hs)⟩
          else none
      | _, _ => none
  | _ => none

/-- The template, cut at the occurrences that count. -/
def occurrencePieces
    (counts : Occurrence → Bool)
    (template : List Char) :
    List (Piece Occurrence) :=
  cut (fun cs => (matchFormat cs).filter counts) Occurrence.text 0 template

/-- The occurrences in a template that count, in order. -/
def occurrences
    (counts : Occurrence → Bool)
    (template : List Char) :
    List Occurrence :=
  Substitution.tokens (occurrencePieces counts template)

/-- What the loop of `resolve` leaves of the template, the occurrences in it being marked. -/
def trackedOutput
    (counts : Occurrence → Bool)
    (reference : DIReference)
    (values : List (List Char × List Char)) :
    List (Char × Bool) :=
  replaceInOrderTracked Token.text (valueOf values) reference.tokens
    (track Occurrence.text (occurrencePieces counts reference.template))

/-- The tokens are the occurrences that count, and with a value for each of them nothing of
these occurrences is left. -/
structure ResolvesCompletely
    (counts : Occurrence → Bool)
    (reference : DIReference) :
    Prop where
  nonempty : reference.tokens ≠ []
  listed :
    reference.tokens.map (fun t => (t.provider, t.key)) =
      (occurrences counts reference.template).map (fun o => (o.provider, o.key))
  substituted :
    ∀ values,
      (∀ token ∈ reference.tokens, ∃ value, values.lookup token.fullKey = some value) →
      reference.resolve values = .ok (forget (trackedOutput counts reference values)) ∧
        ∀ c ∈ trackedOutput counts reference values, c.2 = false

/-- No extracted key has an empty segment. -/
def NoEmptySegment (template : List Char) : Prop :=
  ∀ token : Token, token.provider ≠ [] → token.key ≠ [] → token.text <:+: template →
    [] ∉ token.key.splitOn '.'

/-- No provider stands between braces alone. -/
def NoBareProvider (template : List Char) : Prop :=
  ∀ o : Occurrence, o.text <:+: template → o.segments ≠ []

/-! ## What the patterns match -/

theorem isKeyChar_iff {c : Char} :
    isKeyChar c = true ↔ isSegmentChar c = true ∨ c = '.' := by
  simp [isKeyChar, isSegmentChar, or_assoc]

theorem dot_not_segment {c : Char} (h : isSegmentChar c = true) : c ≠ '.' := by
  rintro rfl
  revert h
  decide

theorem segment_of_provider {c : Char} (h : isProviderChar c = true) :
    isSegmentChar c = true := by
  simp [isSegmentChar, h]

/-- The token pattern matches the texts of the tokens with a provider and a key. -/
theorem matchToken_eq_some_iff
    {cs : List Char} {token : Token} :
    matchToken cs = some token ↔
      token.text <+: cs ∧ token.provider ≠ [] ∧ token.key ≠ [] := by
  constructor
  · intro h
    obtain ⟨rest, hrest⟩ := eq_of_matchToken h
    refine ⟨hrest ▸ List.prefix_append _ _, ?_⟩
    unfold matchToken at h
    split at h
    · dsimp only at h
      split at h
      · split at h
        · split at h
          · next hne =>
              cases h
              exact hne
          · cases h
        · cases h
      · cases h
    · cases h
  · rintro ⟨⟨rest, rfl⟩, hne⟩
    have hprovider := @takeWhile_run isProviderChar token.provider
      (token.key ++ '\x7d' :: rest) '.' token.provider_chars (by decide)
    have hkey := @takeWhile_run isKeyChar token.key rest '\x7d' token.key_chars (by decide)
    have htext : token.text ++ rest =
        '$' :: '\x7b' :: (token.provider ++ '.' :: (token.key ++ '\x7d' :: rest)) := by
      simp [Token.text, Token.fullKey]
    rw [htext, matchToken]
    simp only [hprovider, hkey]
    exact if_pos hne

namespace Occurrence

theorem part_chars
    (o : Occurrence) :
    ∀ part ∈ o.provider :: o.segments, ∀ c ∈ part, isSegmentChar c = true := by
  intro part hpart c hc
  rcases List.mem_cons.mp hpart with rfl | hpart
  · exact segment_of_provider (o.provider_chars c hc)
  · exact o.segment_chars part hpart c hc

theorem isKeyChar_of_mem
    {o : Occurrence} {c : Char}
    (h : c ∈ o.fullKey) :
    isKeyChar c = true := by
  rw [isKeyChar_iff]
  rcases mem_intercalate h with hdot | ⟨part, hpart, hc⟩
  · exact .inr hdot
  · exact .inl (o.part_chars part hpart c hc)

theorem splitOn_fullKey (o : Occurrence) :
    o.fullKey.splitOn '.' = o.provider :: o.segments :=
  List.splitOn_intercalate '.'
    (fun part hpart hdot => dot_not_segment (o.part_chars part hpart '.' hdot) rfl)
    (List.cons_ne_nil o.provider o.segments)

theorem fullKey_of_keyed
    {o : Occurrence}
    (h : o.segments ≠ []) :
    o.fullKey = o.provider ++ '.' :: o.key := by
  rw [fullKey, List.intercalate_cons_of_ne_nil h, List.append_assoc]
  rfl

/-- The dollar of an occurrence is its only one. -/
theorem starts_text (o : Occurrence) : ∃ w, o.text = '$' :: w ∧ '$' ∉ w := by
  refine ⟨_, rfl, fun hmem => ?_⟩
  rcases List.mem_cons.mp hmem with hbrace | hmem
  · cases hbrace
  · rcases List.mem_append.mp hmem with hmem | hmem
    · have hchar := isKeyChar_of_mem hmem
      revert hchar
      decide
    · cases List.mem_singleton.mp hmem

end Occurrence

theorem Occurrence.takeWhile_text (o : Occurrence) (rest : List Char) :
    ∃ cs, o.text ++ rest = '$' :: '\x7b' :: cs ∧ cs.takeWhile isKeyChar = o.fullKey ∧
      cs.dropWhile isKeyChar = '\x7d' :: rest :=
  ⟨o.fullKey ++ '\x7d' :: rest, by simp [text],
    @takeWhile_run isKeyChar o.fullKey rest '\x7d' (fun _ => isKeyChar_of_mem) (by decide)⟩

/-- What stands between the braces, when it is cut at its dots. -/
theorem text_eq_of_splitOn
    {cs rest : List Char} {o : Occurrence}
    (hbrace : cs.dropWhile isKeyChar = '\x7d' :: rest)
    (hsplit : (cs.takeWhile isKeyChar).splitOn '.' = o.provider :: o.segments) :
    o.text ++ rest = '$' :: '\x7b' :: cs := by
  have hkey := List.takeWhile_append_dropWhile (p := isKeyChar) (l := cs)
  have hjoin := @List.intercalate_splitOn _ (cs.takeWhile isKeyChar) _ _ '.'
  rw [hsplit] at hjoin
  rw [← hjoin, hbrace] at hkey
  rw [← hkey]
  simp [Occurrence.text, Occurrence.fullKey]

/-- The pattern of `validate_format` matches the texts of the occurrences. -/
theorem matchFormat_eq_some_iff
    {cs : List Char} {o : Occurrence} :
    matchFormat cs = some o ↔ o.text <+: cs := by
  constructor
  · intro h
    unfold matchFormat at h
    split at h
    · next cs =>
        split at h
        · next rest provider segments hbrace hsplit =>
            split at h
            · cases h
              exact ⟨rest, text_eq_of_splitOn hbrace hsplit⟩
            · cases h
        · cases h
    · cases h
  · rintro ⟨rest, rfl⟩
    obtain ⟨cs, htext, hkey, hbrace⟩ := o.takeWhile_text rest
    rw [htext, matchFormat]
    simp only [hkey, hbrace, o.splitOn_fullKey]
    exact dif_pos ⟨⟨o.provider_ne, List.all_eq_true.mpr o.provider_chars⟩, o.segments_ne,
      fun s hs => List.all_eq_true.mpr (o.segment_chars s hs)⟩

/-- `validate_format` looks for an occurrence. -/
theorem matchesFormat_iff
    {cs : List Char} :
    matchesFormat cs = true ↔ ∃ o : Occurrence, o.text <+: cs := by
  constructor
  · intro h
    unfold matchesFormat at h
    split at h
    · next cs =>
        split at h
        · next rest provider segments hbrace hsplit =>
            obtain ⟨hne, hprovider, hsegments⟩ := of_decide_eq_true h
            refine ⟨⟨provider, segments, hne, List.all_eq_true.mp hprovider,
              fun s hs => by simpa using List.all_eq_true.mp hsegments s hs,
              fun s hs c hc => ?_⟩, rest, text_eq_of_splitOn hbrace hsplit⟩
            -- The characters between two dots are of the class already.
            obtain ⟨hmem, hdot⟩ := mem_of_mem_splitOn
              (hsplit ▸ List.mem_cons_of_mem provider hs) hc
            exact (isKeyChar_iff.mp (List.mem_takeWhile_imp hmem)).resolve_right hdot
        · cases h
    · cases h
  · rintro ⟨o, rest, rfl⟩
    obtain ⟨cs, htext, hkey, hbrace⟩ := o.takeWhile_text rest
    rw [htext, matchesFormat]
    simp only [hkey, hbrace, o.splitOn_fullKey]
    exact decide_eq_true ⟨o.provider_ne, List.all_eq_true.mpr o.provider_chars,
      List.all_eq_true.mpr fun s hs => by simpa using o.segments_ne s hs⟩

/-! ## Where the patterns match alike -/

theorem matchesText_token : MatchesText matchToken Token.text '$' where
  starts := marked_text.starts
  prefix_of _ _ h := (matchToken_eq_some_iff.mp h).1

theorem matchesText_occurrence (counts : Occurrence → Bool) :
    MatchesText (fun cs => (matchFormat cs).filter counts) Occurrence.text '$' where
  starts := Occurrence.starts_text
  prefix_of _ _ h := matchFormat_eq_some_iff.mp (Option.filter_eq_some_iff.mp h).1

theorem piecesFrom_eq_cut (skip : ℕ) (cs : List Char) :
    piecesFrom skip cs = cut matchToken Token.text skip cs := by
  induction cs generalizing skip with
  | nil => cases skip <;> rfl
  | cons c cs ih =>
      cases skip with
      | succ skip => exact ih skip
      | zero =>
          rw [piecesFrom, cut]
          cases matchToken (c :: cs) with
          | some token => exact congrArg (Piece.token token :: ·) (ih _)
          | none => exact congrArg (Piece.literal c :: ·) (ih 0)

/-- `tokens` lists the matches of its pattern at all places of the template. -/
theorem tokens_eq (reference : DIReference) :
    reference.tokens = reference.template.tails.filterMap matchToken := by
  rw [tokens, pieces, piecesFrom_eq_cut, tokens_cut matchesText_token]
  rfl

theorem occurrences_eq (counts : Occurrence → Bool) (template : List Char) :
    occurrences counts template =
      template.tails.filterMap fun cs => (matchFormat cs).filter counts := by
  rw [occurrences, occurrencePieces, tokens_cut (matchesText_occurrence counts)]
  rfl

/-- An occurrence with a key, as a token. -/
def Occurrence.toToken (o : Occurrence) : Token where
  provider := o.provider
  key := o.key
  provider_chars := o.provider_chars
  key_chars c hc := by
    rcases mem_intercalate hc with hdot | ⟨part, hpart, hc⟩
    · exact isKeyChar_iff.mpr (.inr hdot)
    · exact isKeyChar_iff.mpr (.inl (o.segment_chars part hpart c hc))

theorem Occurrence.text_toToken
    {o : Occurrence}
    (h : o.segments ≠ []) :
    o.toToken.text = o.text := by
  rw [text, fullKey_of_keyed h]
  rfl

/-- Where an occurrence with a key stands, a token is extracted. -/
theorem matchToken_of_keyed
    {cs : List Char} {o : Occurrence}
    (h : (matchFormat cs).filter Occurrence.keyed = some o) :
    matchToken cs = some o.toToken := by
  obtain ⟨hmatch, hkeyed⟩ := Option.filter_eq_some_iff.mp h
  have hne : o.segments ≠ [] := by simpa [Occurrence.keyed] using hkeyed
  refine matchToken_eq_some_iff.mpr ⟨?_, o.provider_ne, fun hkey => ?_⟩
  · rw [Occurrence.text_toToken hne]
    exact matchFormat_eq_some_iff.mp hmatch
  · -- A key starts with a segment that is not empty.
    obtain ⟨s, rest, hsegments⟩ := List.exists_cons_of_ne_nil hne
    have hsegment : s ≠ [] := o.segments_ne s (hsegments ▸ List.mem_cons_self)
    have hkey : ['.'].intercalate (s :: rest) = [] := hsegments ▸ hkey
    cases rest with
    | nil => exact hsegment (by simpa using hkey)
    | cons next rest => simp at hkey

/-- A token without an empty segment is an occurrence. -/
theorem matchFormat_of_token
    {cs : List Char} {token : Token}
    (h : matchToken cs = some token)
    (hsegments : [] ∉ token.key.splitOn '.') :
    ∃ o, (matchFormat cs).filter Occurrence.keyed = some o ∧ o.toToken = token := by
  obtain ⟨hbegins, hprovider, -⟩ := matchToken_eq_some_iff.mp h
  let o : Occurrence := {
    provider := token.provider
    segments := token.key.splitOn '.'
    provider_ne := hprovider
    provider_chars := token.provider_chars
    segments_ne := fun s hs heq => hsegments (heq ▸ hs)
    segment_chars := fun s hs c hc => by
      obtain ⟨hmem, hdot⟩ := mem_of_mem_splitOn hs hc
      exact (isKeyChar_iff.mp (token.key_chars c hmem)).resolve_right hdot }
  have hkeyed : o.segments ≠ [] := List.splitOn_ne_nil '.' token.key
  have htoken : o.toToken = token := by
    have hkey : o.key = token.key := List.intercalate_splitOn '.'
    exact fullKey_inj (congrArg (fun key => token.provider ++ '.' :: key) hkey)
  refine ⟨o, Option.filter_eq_some_iff.mpr ⟨?_, by simpa [Occurrence.keyed] using hkeyed⟩, htoken⟩
  rw [matchFormat_eq_some_iff, ← Occurrence.text_toToken hkeyed, htoken]
  exact hbegins

/-- The pairs extracted at a place are those of the occurrence with a key there when the keys
have no empty segments. -/
theorem pair_eq_iff {rest : List Char} :
    (matchToken rest).map (fun t => (t.provider, t.key)) =
        ((matchFormat rest).filter Occurrence.keyed).map (fun o => (o.provider, o.key)) ↔
      ∀ token, matchToken rest = some token → [] ∉ token.key.splitOn '.' := by
  constructor
  · intro h token htoken
    rw [htoken, Option.map_some] at h
    obtain ⟨o, ho, hpair⟩ := Option.map_eq_some_iff.mp h.symm
    have hkey : o.key = token.key := congrArg Prod.snd hpair
    have hne : o.segments ≠ [] := by
      simpa [Occurrence.keyed] using (Option.filter_eq_some_iff.mp ho).2
    have hsplit : o.key.splitOn '.' = o.segments :=
      List.splitOn_intercalate '.'
        (fun s hs hdot => dot_not_segment (o.segment_chars s hs '.' hdot) rfl) hne
    rw [← hkey, hsplit]
    exact fun hmem => o.segments_ne [] hmem rfl
  · intro h
    cases htoken : matchToken rest with
    | some token =>
        obtain ⟨o, ho, rfl⟩ := matchFormat_of_token htoken (h token htoken)
        rw [ho]
        rfl
    | none =>
        cases ho : (matchFormat rest).filter Occurrence.keyed with
        | none => rfl
        | some o => cases htoken.symm.trans (matchToken_of_keyed ho)

/-- The tokens are the occurrences with a key when no extracted key has an empty segment. -/
theorem listed_iff (reference : DIReference) :
    reference.tokens.map (fun t => (t.provider, t.key)) =
        (occurrences Occurrence.keyed reference.template).map (fun o => (o.provider, o.key)) ↔
      NoEmptySegment reference.template := by
  have hle : ∀ rest pair,
      ((matchFormat rest).filter Occurrence.keyed).map (fun o => (o.provider, o.key)) =
          some pair →
        (matchToken rest).map (fun t => (t.provider, t.key)) = some pair := by
    intro rest pair h
    obtain ⟨o, ho, rfl⟩ := Option.map_eq_some_iff.mp h
    rw [matchToken_of_keyed ho]
    rfl
  rw [tokens_eq, occurrences_eq, List.map_filterMap, List.map_filterMap, filterMap_eq_iff hle]
  constructor
  · intro h token hprovider hkey hinfix
    obtain ⟨rest, hrest, hbegins⟩ := infix_iff_exists_tail.mp hinfix
    exact pair_eq_iff.mp (h rest hrest) token
      (matchToken_eq_some_iff.mpr ⟨hbegins, hprovider, hkey⟩)
  · intro h rest hrest
    refine pair_eq_iff.mpr fun token htoken => ?_
    obtain ⟨hbegins, hprovider, hkey⟩ := matchToken_eq_some_iff.mp htoken
    exact h token hprovider hkey (infix_iff_exists_tail.mpr ⟨rest, hrest, hbegins⟩)

/-! ## Resolving completely -/

/-- The loop replaces every occurrence with a key. -/
theorem unmarked_of_listed
    {reference : DIReference}
    (hlisted : reference.tokens.map (fun t => (t.provider, t.key)) =
      (occurrences Occurrence.keyed reference.template).map (fun o => (o.provider, o.key)))
    (values : List (List Char × List Char)) :
    ∀ c ∈ trackedOutput Occurrence.keyed reference values, c.2 = false := by
  have hkeyed : ∀ o, .token o ∈ occurrencePieces Occurrence.keyed reference.template →
      o ∈ occurrences Occurrence.keyed reference.template ∧ o.segments ≠ [] := by
    intro o ho
    have hmem := mem_tokens_iff.mpr ho
    refine ⟨hmem, ?_⟩
    rw [← occurrences, occurrences_eq] at hmem
    obtain ⟨rest, -, hmatch⟩ := List.mem_filterMap.mp hmem
    simpa [Occurrence.keyed] using (Option.filter_eq_some_iff.mp hmatch).2
  rw [trackedOutput, ← track_map fun o ho => Occurrence.text_toToken (hkeyed o ho).2]
  refine replaceInOrderTracked_unmarked marked_text fun token htoken => ?_
  obtain ⟨piece, hpiece, heq⟩ := List.mem_map.mp htoken
  cases piece with
  | literal c => cases heq
  | token o =>
      cases heq
      have hpair := List.mem_map_of_mem (f := fun o : Occurrence => (o.provider, o.key))
        (hkeyed o hpiece).1
      rw [← hlisted] at hpair
      obtain ⟨token, hmem, hsame⟩ := List.mem_map.mp hpair
      obtain ⟨hprovider, hkey⟩ := Prod.mk.inj hsame
      have htoken : token = o.toToken :=
        fullKey_inj (by rw [Token.fullKey, hprovider, hkey]; rfl)
      rw [htoken] at hmem
      exact hmem

/-- What `resolve` returns is what the loop does to the text, marked or not. -/
theorem resolve_eq_forget
    (counts : Occurrence → Bool)
    {reference : DIReference}
    {values : List (List Char × List Char)}
    (h : ∀ token ∈ reference.tokens, ∃ value, values.lookup token.fullKey = some value) :
    reference.resolve values = .ok (forget (trackedOutput counts reference values)) := by
  rw [resolve, resolveInOrder_eq h, trackedOutput, forget_replaceInOrder, occurrencePieces,
    forget_track_cut (matchesText_occurrence counts)]
  rfl

/-- The template is resolved completely, for the occurrences with a key. -/
theorem resolvesCompletely_keyed_iff (reference : DIReference) :
    ResolvesCompletely Occurrence.keyed reference ↔
      (∃ o : Occurrence, o.segments ≠ [] ∧ o.text <:+: reference.template) ∧
        NoEmptySegment reference.template := by
  constructor
  · intro h
    obtain ⟨token, htoken⟩ := List.exists_mem_of_ne_nil _ h.nonempty
    have hpair := List.mem_map_of_mem (f := fun t : Token => (t.provider, t.key)) htoken
    rw [h.listed] at hpair
    obtain ⟨o, ho, -⟩ := List.mem_map.mp hpair
    rw [occurrences_eq] at ho
    obtain ⟨rest, hrest, hmatch⟩ := List.mem_filterMap.mp ho
    obtain ⟨hmatch, hkeyed⟩ := Option.filter_eq_some_iff.mp hmatch
    exact ⟨⟨o, by simpa [Occurrence.keyed] using hkeyed,
      infix_iff_exists_tail.mpr ⟨rest, hrest, matchFormat_eq_some_iff.mp hmatch⟩⟩,
      (listed_iff reference).mp h.listed⟩
  · rintro ⟨⟨o, hkeyed, hinfix⟩, hsegments⟩
    have hlisted := (listed_iff reference).mpr hsegments
    refine ⟨?_, hlisted, fun values hvalues =>
      ⟨resolve_eq_forget _ hvalues, unmarked_of_listed hlisted values⟩⟩
    obtain ⟨rest, hrest, hbegins⟩ := infix_iff_exists_tail.mp hinfix
    have hmatch : (matchFormat rest).filter Occurrence.keyed = some o :=
      Option.filter_eq_some_iff.mpr ⟨matchFormat_eq_some_iff.mpr hbegins,
        by simpa [Occurrence.keyed] using hkeyed⟩
    rw [tokens_eq]
    exact List.ne_nil_of_mem (List.mem_filterMap.mpr ⟨rest, hrest, matchToken_of_keyed hmatch⟩)

/-- Without such a provider, all occurrences have a key. -/
theorem occurrencePieces_of_noBareProvider
    {template : List Char}
    (h : NoBareProvider template) :
    occurrencePieces (fun _ => true) template = occurrencePieces Occurrence.keyed template := by
  refine cut_congr (fun rest hrest => ?_) 0
  cases hmatch : matchFormat rest with
  | none => rfl
  | some o =>
      have hkeyed : o.segments ≠ [] :=
        h o (infix_iff_exists_tail.mpr ⟨rest, (List.mem_tails rest template).mpr hrest,
          matchFormat_eq_some_iff.mp hmatch⟩)
      simp [Option.filter, Occurrence.keyed, hkeyed]

/--
A template is resolved completely exactly when the two patterns match at the same places.
For the occurrences with a key, one must be there, and no extracted key may have an empty
segment; for all matches of the pattern of `validate_format`, no provider may stand alone.
-/
theorem resolvesCompletely_iff (reference : DIReference) :
    (ResolvesCompletely Occurrence.keyed reference ↔
      (∃ o : Occurrence, o.segments ≠ [] ∧ o.text <:+: reference.template) ∧
        NoEmptySegment reference.template) ∧
    (ResolvesCompletely (fun _ => true) reference ↔
      NoBareProvider reference.template ∧ NoEmptySegment reference.template) := by
  refine ⟨resolvesCompletely_keyed_iff reference, ?_⟩
  have hsame : NoBareProvider reference.template →
      (ResolvesCompletely (fun _ => true) reference ↔
        ResolvesCompletely Occurrence.keyed reference) := by
    intro h
    have hpieces := occurrencePieces_of_noBareProvider h
    have hoccurrences : occurrences (fun _ => true) reference.template =
        occurrences Occurrence.keyed reference.template := by
      rw [occurrences, occurrences, hpieces]
    have htracked : trackedOutput (fun _ => true) reference =
        trackedOutput Occurrence.keyed reference := by
      funext values
      rw [trackedOutput, trackedOutput, hpieces]
    constructor
    · rintro ⟨hnonempty, hlisted, hsubstituted⟩
      rw [hoccurrences] at hlisted
      rw [htracked] at hsubstituted
      exact ⟨hnonempty, hlisted, hsubstituted⟩
    · rintro ⟨hnonempty, hlisted, hsubstituted⟩
      rw [← hoccurrences] at hlisted
      rw [← htracked] at hsubstituted
      exact ⟨hnonempty, hlisted, hsubstituted⟩
  constructor
  · intro h
    have hbare : NoBareProvider reference.template := by
      intro o hinfix hsegments
      obtain ⟨rest, hrest, hbegins⟩ := infix_iff_exists_tail.mp hinfix
      have ho : o ∈ occurrences (fun _ => true) reference.template := by
        rw [occurrences_eq]
        refine List.mem_filterMap.mpr ⟨rest, hrest, ?_⟩
        rw [matchFormat_eq_some_iff.mpr hbegins]
        rfl
      -- Its key is empty, and no token has such a key.
      have hpair := List.mem_map_of_mem (f := fun o : Occurrence => (o.provider, o.key)) ho
      rw [← h.listed] at hpair
      obtain ⟨token, htoken, hsame⟩ := List.mem_map.mp hpair
      rw [tokens_eq] at htoken
      obtain ⟨rest', -, hmatch⟩ := List.mem_filterMap.mp htoken
      refine (matchToken_eq_some_iff.mp hmatch).2.2 ((congrArg Prod.snd hsame).trans ?_)
      exact congrArg (['.'].intercalate ·) hsegments
    exact ⟨hbare, ((resolvesCompletely_keyed_iff reference).mp ((hsame hbare).mp h)).2⟩
  · rintro ⟨hbare, hsegments⟩
    refine (hsame hbare).mpr ((resolvesCompletely_keyed_iff reference).mpr ⟨?_, hsegments⟩)
    obtain ⟨rest, hrest, hmatch⟩ := List.any_eq_true.mp reference.valid
    obtain ⟨o, hbegins⟩ := matchesFormat_iff.mp hmatch
    have hinfix : o.text <:+: reference.template :=
      infix_iff_exists_tail.mpr ⟨rest, hrest, hbegins⟩
    exact ⟨o, hbare o hinfix, hinfix⟩

/-- A template with a provider only. -/
def bareProvider : DIReference :=
  ⟨"$\x7bprovider\x7d".toList, by decide⟩

/-- It is accepted, has no tokens, and is passed on as it is. -/
theorem bareProvider_unresolved :
    ¬ ResolvesCompletely Occurrence.keyed bareProvider ∧
      ¬ ResolvesCompletely (fun _ => true) bareProvider ∧
      bareProvider.resolve [] = .ok bareProvider.template := by
  have htokens : bareProvider.tokens = [] := by decide
  exact ⟨fun h => h.nonempty htokens, fun h => h.nonempty htokens, by decide⟩

end DIReference
end YamlAgno
