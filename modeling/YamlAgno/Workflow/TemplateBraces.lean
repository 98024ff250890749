import YamlAgno.Library.Brackets
import YamlAgno.Workflow.ConditionEvaluator

/-!
# Templates and their braces

`ConditionEvaluator._strip_template` looks at the first two characters and at the last one.  It
does not see whether they belong together: of two templates in one expression it takes the
opening of the first and the closing of the second.

So braces are respected exactly if the expression is not of that shape, or is one template from
its first character to its last (`strip_respects_braces_iff`).
-/

namespace YamlAgno
namespace Workflow
namespace ConditionEvaluator

open PyText

/-- Balanced braces. -/
def BalancedBraces (text : List Char) : Prop :=
  Brackets.Balanced '\x7b' '\x7d' text

instance (text : List Char) : Decidable (BalancedBraces text) :=
  inferInstanceAs (Decidable (Brackets.Balanced _ _ text))

/-- A text that is one template: the partner of its opening brace is its last character. -/
def IsOneTemplate (text : List Char) : Prop :=
  ∃ rest, text = '$' :: '\x7b' :: rest ∧ Brackets.afterMatch '\x7b' '\x7d' 0 rest = some []

/-- A template with the given text inside. -/
def wrap (inner : List Char) : List Char :=
  '$' :: '\x7b' :: (inner ++ ['\x7d'])

/-- What it is for `_strip_template` to respect the braces of an expression. -/
structure RespectsBraces (expr : String) : Prop where
  /-- One template loses its delimiters. -/
  removes : ∀ inner, strip expr.toList = wrap inner → IsOneTemplate (strip expr.toList) →
    stripTemplate expr = String.ofList (strip inner)
  /-- Every other text stays as it is, but for whitespace around it. -/
  keeps : ¬ IsOneTemplate (strip expr.toList) →
    stripTemplate expr = String.ofList (strip expr.toList)
  balanced : BalancedBraces (stripTemplate expr).toList
  /-- Wrapping the text is undone. -/
  unwraps : Trimmed expr.toList → stripTemplate (String.ofList (wrap expr.toList)) = expr

theorem isTemplate_iff
    {text : List Char} :
    isTemplate text = true ↔ ∃ inner, text = wrap inner := by
  rw [isTemplate, Bool.and_eq_true, List.isPrefixOf_iff_prefix, List.isSuffixOf_iff_suffix]
  constructor
  · rintro ⟨⟨rest, rfl⟩, hlast⟩
    obtain ⟨front, hfront⟩ := hlast
    -- The last brace stands behind the first two characters.
    have hne : rest ≠ [] := by
      rintro rfl
      have hchar := congrArg List.getLast? hfront
      simp at hchar
    obtain ⟨inner, last, rfl⟩ := (List.eq_nil_or_concat rest).resolve_left hne
    rw [List.concat_eq_append, ← List.append_assoc] at hfront
    obtain ⟨-, hlast⟩ := List.append_inj' hfront rfl
    obtain rfl : '\x7d' = last := by simpa using hlast
    exact ⟨inner, by simp [wrap]⟩
  · rintro ⟨inner, rfl⟩
    exact ⟨⟨inner ++ ['\x7d'], rfl⟩, ⟨'$' :: '\x7b' :: inner, rfl⟩⟩

/-- A wrapped text is one template exactly when it is balanced. -/
theorem isOneTemplate_wrap_iff
    {inner : List Char} :
    IsOneTemplate (wrap inner) ↔ BalancedBraces inner := by
  rw [BalancedBraces, ← Brackets.afterMatch_eq_nil_iff (by decide)]
  constructor
  · rintro ⟨rest, hrest, h⟩
    obtain rfl : inner ++ ['\x7d'] = rest := by simpa [wrap] using hrest
    exact h
  · intro h
    exact ⟨_, rfl, h⟩

/-- Whitespace around a text is no brace. -/
theorem balancedBraces_strip_iff
    (text : List Char) :
    BalancedBraces (strip text) ↔ BalancedBraces text := by
  have hspace : ∀ around : List Char, (∀ c ∈ around, isSpace c = true) →
      BalancedBraces around := fun around h =>
    Brackets.depth_of_notMem (fun hmem => absurd (h _ hmem) (by decide))
      (fun hmem => absurd (h _ hmem) (by decide)) 0
  obtain ⟨front, back, htext, hfront, hback⟩ := exists_strip text
  have hiff : BalancedBraces (front ++ (strip text ++ back)) ↔ BalancedBraces (strip text) :=
    (Brackets.balanced_append_iff (hspace front hfront)).trans
      (Brackets.balanced_append_iff_left (hspace back hback))
  rw [← hiff, ← htext]

/-- Text that is no template is stripped of whitespace only. -/
theorem stripTemplate_of_not_isTemplate
    {expr : String}
    (h : isTemplate (strip expr.toList) = false) :
    stripTemplate expr = String.ofList (strip expr.toList) := by
  simp [stripTemplate, stripDelimiters, h]

theorem stripTemplate_of_wrap
    {expr : String}
    {inner : List Char}
    (h : strip expr.toList = wrap inner) :
    stripTemplate expr = String.ofList (strip inner) := by
  have htemplate : isTemplate (wrap inner) = true := isTemplate_iff.mpr ⟨inner, rfl⟩
  have hinner : ((wrap inner).drop 2).dropLast = inner := by simp [wrap]
  simp only [stripTemplate, stripDelimiters, h, htemplate, if_true, hinner]

/-- A wrapped text has no whitespace at its ends. -/
theorem strip_wrap
    (inner : List Char) :
    strip (wrap inner) = wrap inner := by
  refine (strip_eq_self_iff _).mpr ⟨?_, ?_⟩
  · intro c hc
    obtain rfl : '$' = c := by simpa [wrap] using hc
    decide
  · intro c hc
    have hlast : (wrap inner).getLast? = some '\x7d' :=
      List.getLast?_concat (l := '$' :: '\x7b' :: inner)
    rw [hlast] at hc
    obtain rfl : '\x7d' = c := by simpa using hc
    decide

/-- Wrapping a trimmed text is undone, whatever its braces. -/
theorem stripTemplate_wrap
    {expr : String}
    (h : Trimmed expr.toList) :
    stripTemplate (String.ofList (wrap expr.toList)) = expr := by
  have hstrip : strip (String.ofList (wrap expr.toList)).toList = wrap expr.toList := by
    rw [String.toList_ofList, strip_wrap]
  rw [stripTemplate_of_wrap hstrip, (strip_eq_self_iff _).mpr h, String.ofList_toList]

/--
For balanced braces, `_strip_template` respects them exactly when a trimmed expression of the
shape that it looks for is one template.
-/
theorem strip_respects_braces_iff
    (expr : String)
    (hbalanced : BalancedBraces expr.toList) :
    RespectsBraces expr ↔
      (isTemplate (strip expr.toList) = true → IsOneTemplate (strip expr.toList)) := by
  constructor
  · intro h htemplate
    by_contra hnot
    obtain ⟨inner, hinner⟩ := isTemplate_iff.mp htemplate
    -- The delimiters are gone, so the text is shorter.
    have hsame : strip inner = wrap inner := by
      have hkeeps := h.keeps hnot
      rw [stripTemplate_of_wrap hinner, hinner] at hkeeps
      exact String.ofList_injective hkeeps
    have hlength := strip_length_le inner
    rw [hsame, wrap, List.length_cons, List.length_cons, List.length_append] at hlength
    omega
  · intro h
    have hstrip := (balancedBraces_strip_iff expr.toList).mpr hbalanced
    refine ⟨fun inner hinner _ => stripTemplate_of_wrap hinner, fun hnot => ?_, ?_,
      stripTemplate_wrap⟩
    · refine stripTemplate_of_not_isTemplate ?_
      rw [← Bool.not_eq_true]
      exact fun htemplate => hnot (h htemplate)
    · cases htemplate : isTemplate (strip expr.toList) with
      | false => rwa [stripTemplate_of_not_isTemplate htemplate, String.toList_ofList]
      | true =>
          obtain ⟨inner, hinner⟩ := isTemplate_iff.mp htemplate
          have hone := h htemplate
          rw [hinner, isOneTemplate_wrap_iff] at hone
          rw [stripTemplate_of_wrap hinner, String.toList_ofList]
          exact (balancedBraces_strip_iff inner).mpr hone

/-- One template, with a map inside. -/
theorem strip_respects_braces_map :
    RespectsBraces " $\x7binput.tags == \x7b'a': 1\x7d\x7d" ↔
      (isTemplate (strip " $\x7binput.tags == \x7b'a': 1\x7d\x7d".toList) = true →
        IsOneTemplate (strip " $\x7binput.tags == \x7b'a': 1\x7d\x7d".toList)) :=
  strip_respects_braces_iff _ (by decide +kernel)

/-- Two templates: what is left begins in the middle of the first. -/
theorem two_templates_torn :
    ¬ ∀ expr : String, BalancedBraces expr.toList → RespectsBraces expr := by
  intro hall
  have hrespects := hall "$\x7ba\x7d == $\x7bb\x7d" (by decide +kernel)
  have htorn : stripTemplate "$\x7ba\x7d == $\x7bb\x7d" = "a\x7d == $\x7bb" := by
    decide +kernel
  have hbalanced := hrespects.balanced
  rw [htorn] at hbalanced
  revert hbalanced
  decide +kernel

end ConditionEvaluator
end Workflow
end YamlAgno
