import YamlAgno.Library.Fallible
import YamlAgno.Library.OrderedDict
import YamlAgno.Library.Substitution

/-!
# References in YAML fields

`DIReference` of `models/value_objects/di_reference.py` and `ValueResolver` of
`di/value_resolver.py`.  A template holds tokens such as `${env.api_key}`; the resolver asks
the provider of each for its value, and the reference replaces one token after the other in
the text that it has so far.

So a value that reads as a token of the template, alone or together with the text around
it, is replaced as well.  `resolvesAtOnce_iff` says exactly for which templates and
values that does not happen.
-/

namespace YamlAgno

open Fallible Substitution

/-- The class `[a-z_]` of the pattern. -/
def isProviderChar (c : Char) : Bool :=
  ('a' ≤ c ∧ c ≤ 'z') ∨ c = '_'

/-- The class `[a-z0-9_.]` of the pattern. -/
def isKeyChar (c : Char) : Bool :=
  isProviderChar c ∨ ('0' ≤ c ∧ c ≤ '9') ∨ c = '.'

namespace DIReference

/-- A match of the token pattern, by its two groups. -/
structure Token where
  provider : List Char
  key : List Char
  provider_chars : ∀ c ∈ provider, isProviderChar c = true
  key_chars : ∀ c ∈ key, isKeyChar c = true
deriving DecidableEq

/-- The key of a token among the resolved values. -/
def Token.fullKey (token : Token) : List Char :=
  token.provider ++ '.' :: token.key

/-- The text of a token in the template. -/
def Token.text (token : Token) : List Char :=
  '$' :: '\x7b' :: (token.fullKey ++ ['\x7d'])

/-- The token that a text begins with: `[a-z_]+`, a dot, `[a-z0-9_.]+` and the brace. -/
def matchToken : List Char → Option Token
  | '$' :: '\x7b' :: cs =>
      let provider := cs.takeWhile isProviderChar
      match cs.dropWhile isProviderChar with
      | '.' :: cs =>
          let key := cs.takeWhile isKeyChar
          match cs.dropWhile isKeyChar with
          | '\x7d' :: _ =>
              if provider ≠ [] ∧ key ≠ [] then
                some ⟨provider, key, fun _ h => List.mem_takeWhile_imp h,
                  fun _ h => List.mem_takeWhile_imp h⟩
              else none
          | _ => none
      | _ => none
  | _ => none

/-- The pattern of `validate_format` matches at the start: the key may be missing, and no
segment of it is empty. -/
def matchesFormat : List Char → Bool
  | '$' :: '\x7b' :: cs =>
      match cs.dropWhile isKeyChar, (cs.takeWhile isKeyChar).splitOn '.' with
      | '\x7d' :: _, provider :: segments =>
          provider ≠ [] ∧ provider.all isProviderChar ∧ segments.all (· ≠ [])
      | _, _ => false
  | _ => false

/-- `re.search` finds the pattern of `validate_format`. -/
def hasReference (template : List Char) : Bool :=
  template.tails.any matchesFormat

/-- The template, cut at the matches of the token pattern; the counter skips what the last
match covers. -/
def piecesFrom : ℕ → List Char → List (Piece Token)
  | _, [] => []
  | skip + 1, _ :: cs => piecesFrom skip cs
  | 0, c :: cs =>
      match matchToken (c :: cs) with
      | some token => .token token :: piecesFrom (token.text.length - 1) cs
      | none => .literal c :: piecesFrom 0 cs

end DIReference

/-- `DIReference`: a template that has passed `validate_format`. -/
structure DIReference where
  template : List Char
  valid : DIReference.hasReference template = true

namespace DIReference

/-- The template, cut at the matches of the token pattern. -/
def pieces (reference : DIReference) : List (Piece Token) :=
  piecesFrom 0 reference.template

/-- `tokens`. -/
def tokens (reference : DIReference) : List Token :=
  Substitution.tokens reference.pieces

/-- The replacements of `resolve`, for the tokens of a list. -/
def resolveInOrder
    (order : List Token)
    (resolvedValues : List (List Char × List Char))
    (template : List Char) :
    Except String (List Char) :=
  order.foldlM (fun out token =>
    match resolvedValues.lookup token.fullKey with
    | none =>
        .error s!"Unresolved DI reference: $\x7b{String.ofList token.fullKey}\x7d"
    | some value => .ok (PyText.replaceFrom token.text value 0 out)) template

/-- `resolve`; the error is the text of the `KeyError`. -/
def resolve
    (reference : DIReference)
    (resolvedValues : List (List Char × List Char)) :
    Except String (List Char) :=
  resolveInOrder reference.tokens resolvedValues reference.template

end DIReference

namespace ValueResolver

/-- What `ValueResolver.resolve` raises: its own error, or the `ValidationError` of the
configuration. -/
inductive ResolveError (E : Type) where
  | notImplemented (message : String)
  | config (error : E)
deriving DecidableEq

/-- `_resolve_provider`. -/
def resolveProvider
    {E : Type}
    (getString : List Char → Except E (List Char))
    (provider key : List Char) :
    Except (ResolveError E) (List Char) :=
  if provider = "env".toList then
    (getString key).mapError .config
  else
    let quoted := String.ofList provider
    .error (.notImplemented (s!"ValueResolver MVP supports only frozenset(\x7b'env'\x7d); " ++
      s!"provider '{quoted}' is deferred to SPEC_23"))

/-- `resolve`, for what the providers answer. -/
def resolve
    {E : Type}
    (resolveProvider : List Char → List Char → Except E (List Char))
    (reference : DIReference) :
    Except E (List (List Char × List Char)) :=
  reference.tokens.foldlM (fun resolved token => do
    let value ← resolveProvider token.provider token.key
    return OrderedDict.set token.fullKey value resolved) []

/-- Every token of the reference is a key of what the resolver returns. -/
theorem exists_lookup_of_resolve
    {E : Type}
    {resolveProvider : List Char → List Char → Except E (List Char)}
    {reference : DIReference}
    {values : List (List Char × List Char)}
    (h : resolve resolveProvider reference = .ok values) :
    ∀ token ∈ reference.tokens, ∃ value, values.lookup token.fullKey = some value := by
  intro token htoken
  have hkeys : ∀ k, k ∈ values.map Prod.fst ↔
      k ∈ reference.tokens.map DIReference.Token.fullKey ∨
        k ∈ ([] : List (List Char × List Char)).map Prod.fst := by
    refine mem_keys_of_foldlM (fun resolved => resolved.map Prod.fst) DIReference.Token.fullKey
      (fun resolved token resolved' hstep k => ?_) h
    obtain ⟨value, -, hset⟩ := bind_eq_ok_iff.mp hstep
    cases hset
    exact OrderedDict.mem_keys_set
  have hmem : token.fullKey ∈ values.map Prod.fst :=
    (hkeys _).mpr (.inl (List.mem_map_of_mem htoken))
  cases hlookup : values.lookup token.fullKey with
  | some value => exact ⟨value, rfl⟩
  | none =>
      obtain ⟨⟨key, value⟩, hitem, heq⟩ := List.mem_map.mp hmem
      have hne := List.lookup_eq_none_iff.mp hlookup (key, value) hitem
      simp [← heq] at hne

end ValueResolver

namespace DIReference

/-! ## The text of a token -/

theorem isKeyChar_of_mem
    {token : Token} {c : Char}
    (h : c ∈ token.fullKey) :
    isKeyChar c = true := by
  rcases List.mem_append.mp h with h | h
  · simp [isKeyChar, token.provider_chars c h]
  · rcases List.mem_cons.mp h with rfl | h
    · rfl
    · exact token.key_chars c h

/-- A full key has one provider. -/
theorem fullKey_inj
    {token token' : Token}
    (h : token.fullKey = token'.fullKey) :
    token = token' := by
  have hdot : ∀ token : Token, '.' ∉ token.provider := by
    intro token hmem
    have hchar := token.provider_chars '.' hmem
    revert hchar
    decide
  obtain ⟨provider, key, hprovider, hkey⟩ := token
  obtain ⟨provider', key', hprovider', hkey'⟩ := token'
  obtain ⟨heq, heq'⟩ := PyText.append_sep_inj (hdot ⟨provider, key, hprovider, hkey⟩)
    (hdot ⟨provider', key', hprovider', hkey'⟩) h
  cases heq
  cases heq'
  rfl

/-- The dollar of a token is its only one, and its brace the first. -/
theorem marked_text : Marked Token.text '$' where
  starts token := by
    refine ⟨_, rfl, fun hmem => ?_⟩
    rcases List.mem_cons.mp hmem with hbrace | hmem
    · cases hbrace
    · rcases List.mem_append.mp hmem with hmem | hmem
      · have hchar := isKeyChar_of_mem hmem
        revert hchar
        decide
      · cases List.mem_singleton.mp hmem
  eq_of_begins token token' rest := by
    rintro ⟨more, hmore⟩
    have hbrace : ∀ token : Token, '\x7d' ∉ token.fullKey := by
      intro token hmem
      have hchar := isKeyChar_of_mem hmem
      revert hchar
      decide
    have htexts : token.fullKey ++ '\x7d' :: more = token'.fullKey ++ '\x7d' :: rest := by
      simpa [Token.text] using hmore
    exact fullKey_inj (PyText.append_sep_inj (hbrace token) (hbrace token') htexts).1

theorem eq_of_matchToken
    {cs : List Char} {token : Token}
    (h : matchToken cs = some token) :
    ∃ rest, cs = token.text ++ rest := by
  unfold matchToken at h
  split at h
  · next cs =>
      dsimp only at h
      split at h
      · next cs' hdot =>
          split at h
          · next rest hbrace =>
              split at h
              · cases h
                refine ⟨rest, ?_⟩
                have hprovider := List.takeWhile_append_dropWhile (p := isProviderChar) (l := cs)
                have hkey := List.takeWhile_append_dropWhile (p := isKeyChar) (l := cs')
                rw [hdot] at hprovider
                rw [hbrace] at hkey
                simp only [Token.text, Token.fullKey, List.cons_append, List.append_assoc,
                  List.nil_append, hkey, hprovider]
              · cases h
          · cases h
      · cases h
  · cases h

/-- Cutting a template loses nothing. -/
theorem fill_pieces
    (value : Token → List Char)
    (skip : ℕ) (cs : List Char) :
    fill Token.text value [] (piecesFrom skip cs) = cs.drop skip := by
  induction cs generalizing skip with
  | nil =>
      cases skip <;> rfl
  | cons c cs ih =>
      cases skip with
      | succ skip =>
          exact ih skip
      | zero =>
          rw [piecesFrom]
          split
          · next token htoken =>
              obtain ⟨rest, hrest⟩ := eq_of_matchToken htoken
              have hfill : fill Token.text value []
                  (.token token :: piecesFrom (token.text.length - 1) cs) =
                    token.text ++ fill Token.text value []
                      (piecesFrom (token.text.length - 1) cs) := rfl
              obtain ⟨w, hw, -⟩ := marked_text.starts token
              rw [hfill, ih, List.drop_zero, hrest]
              rw [hw, List.cons_append] at hrest
              cases hrest
              simp [hw]
          · exact congrArg (c :: ·) (ih 0)

/-! ## Resolving at once -/

/-- The resolved value of a token. -/
def valueOf (values : List (List Char × List Char)) (token : Token) : List Char :=
  (values.lookup token.fullKey).getD []

/-- The template with each token replaced by its own value, in one pass. -/
def onePass
    (reference : DIReference)
    (values : List (List Char × List Char)) :
    List Char :=
  substitute (valueOf values) reference.pieces

/-- With a value for every token, the loop raises nothing. -/
theorem resolveInOrder_eq
    {values : List (List Char × List Char)}
    {order : List Token}
    (hvalues : ∀ token ∈ order, ∃ value, values.lookup token.fullKey = some value)
    (out : List Char) :
    resolveInOrder order values out =
      .ok (replaceInOrder Token.text (valueOf values) order out) := by
  induction order generalizing out with
  | nil =>
      rfl
  | cons token order ih =>
      obtain ⟨value, hvalue⟩ := hvalues token List.mem_cons_self
      have hof : valueOf values token = value := by
        rw [valueOf, hvalue, Option.getD_some]
      have hrest := ih (fun t ht => hvalues t (List.mem_cons_of_mem token ht))
        (PyText.replaceFrom token.text value 0 out)
      rw [resolveInOrder] at hrest ⊢
      rw [List.foldlM_cons, hvalue]
      refine hrest.trans ?_
      rw [replaceInOrder, replaceInOrder, List.foldl_cons, hof]

/-- Substitution of the values at once: the order of the tokens does not matter, and nothing
but tokens of the template is replaced. -/
structure ResolvesAtOnce
    (reference : DIReference)
    (values : List (List Char × List Char)) :
    Prop where
  one_pass : reference.resolve values = .ok (reference.onePass values)
  any_order :
    ∀ order, order.Perm reference.tokens →
      resolveInOrder order values reference.template = .ok (reference.onePass values)
  only_tokens :
    ∀ order, order.Perm reference.tokens →
      OnlyOwn Token.text (valueOf values) reference.pieces [] order reference.template

/--
What the providers answer is substituted at once exactly when no stretch of the template,
with the values in place, reads as one of its tokens, but for the place of the only
occurrence of that token.
-/
theorem resolvesAtOnce_iff
    {E : Type}
    {resolveProvider : List Char → List Char → Except E (List Char)}
    {reference : DIReference}
    {values : List (List Char × List Char)}
    (h : ValueResolver.resolve resolveProvider reference = .ok values) :
    ResolvesAtOnce reference values ↔
      Independent Token.text (valueOf values) reference.pieces := by
  have hlookup := ValueResolver.exists_lookup_of_resolve h
  have hloop : ∀ order, order.Perm reference.tokens →
      resolveInOrder order values reference.template =
        .ok (replaceInOrder Token.text (valueOf values) order reference.template) :=
    fun order hperm => resolveInOrder_eq (fun t ht => hlookup t (hperm.mem_iff.mp ht)) _
  have htemplate : fill Token.text (valueOf values) [] reference.pieces = reference.template :=
    fill_pieces (valueOf values) 0 reference.template
  rw [← simultaneous_iff_independent marked_text, Simultaneous, htemplate]
  constructor
  · intro hat order hperm
    have horder := hat.any_order order hperm
    rw [hloop order hperm] at horder
    exact ⟨Except.ok.inj horder, hat.only_tokens order hperm⟩
  · intro hall
    have horder : ∀ order, order.Perm reference.tokens →
        resolveInOrder order values reference.template = .ok (reference.onePass values) :=
      fun order hperm => (hloop order hperm).trans (congrArg Except.ok (hall order hperm).1)
    exact ⟨horder _ (List.Perm.refl _), horder, fun order hperm => (hall order hperm).2⟩

/-- A configuration with two keys, the first of which holds `a`. -/
def twoKeys (a : String) (key : List Char) : Except String (List Char) :=
  if key = "a".toList then .ok a.toList
  else if key = "b".toList then .ok "hunter2".toList
  else .error "Missing required config key"

/-- A template with both keys, the first of them twice. -/
def userAndPassword : DIReference :=
  ⟨"$\x7benv.a\x7d:$\x7benv.b\x7d@$\x7benv.a\x7d".toList, by decide⟩

theorem resolvesAtOnce_userAndPassword :
    ResolvesAtOnce userAndPassword
      [("env.a".toList, "db".toList), ("env.b".toList, "hunter2".toList)] := by
  have h : ValueResolver.resolve (ValueResolver.resolveProvider (twoKeys "db")) userAndPassword =
      .ok [("env.a".toList, "db".toList), ("env.b".toList, "hunter2".toList)] := by
    decide
  exact (resolvesAtOnce_iff h).mpr (by decide)

/-- The first value names the second key, and the password shows up in its place. -/
theorem resolve_readsValueAsToken :
    ∃ values,
      ValueResolver.resolve (ValueResolver.resolveProvider (twoKeys "$\x7benv.b\x7d"))
          userAndPassword = .ok values ∧
        userAndPassword.resolve values = .ok "hunter2:hunter2@hunter2".toList ∧
        userAndPassword.onePass values = "$\x7benv.b\x7d:hunter2@$\x7benv.b\x7d".toList :=
  ⟨[("env.a".toList, "$\x7benv.b\x7d".toList), ("env.b".toList, "hunter2".toList)],
    by decide, by decide, by decide⟩

end DIReference
end YamlAgno
