import YamlAgno.Models.ModelSpec
import YamlAgno.Persistence.StoredAgentConfig

/-!
# The grammars of names and of model strings

`AgentConfig.validate_name_characters` and `ModelStringSpec._from_string` look at their text with
a regular expression between `^` and `$`.  The end anchor also stands before a newline that ends
the text, and nothing behind the match is looked at.

So both are sound for every text but a correct one with a newline after it
(`grammars_exact_iff`); that one is taken with its newline, as a YAML block scalar has it.
-/

namespace YamlAgno

open PyRegex PyText

variable (repr : String → String)

/-- A name that is accepted has characters of the class only, and at least one. -/
def NameExact (text : String) : Prop :=
  AgentConfig.ValidName text → Run AgentConfig.isNameChar text.toList

/-- A model string that is accepted is a provider, a colon and an id, and read as these. -/
def ModelExact (text : String) : Prop :=
  ∀ spec, ModelStringSpec.fromString repr text = .ok spec →
    text = spec.provider ++ ":" ++ spec.id ∧ Run isWordChar spec.provider.toList ∧
      Run isModelIdChar spec.id.toList

/-- A name, and a newline. -/
def NameWithNewline (text : String) : Prop :=
  ∃ name, text.toList = name ++ ['\n'] ∧ Run AgentConfig.isNameChar name ∧ name.length < 100

/-- A string for a supported provider, and a newline. -/
def ModelWithNewline (text : String) : Prop :=
  ∃ provider id, text.toList = provider ++ ':' :: (id ++ ['\n']) ∧
    String.ofList provider ∈ supportedProviders ∧ Run isModelIdChar id

/-- A newline is in neither class, so it ends no run. -/
theorem not_run_newline
    {cls : Char → Bool}
    (hcls : cls '\n' = false)
    (run : List Char) :
    ¬ Run cls (run ++ ['\n']) := by
  intro h
  have hnewline := h.2 '\n' (by simp)
  rw [hcls] at hnewline
  cases hnewline

theorem validNameCharacters_iff
    {text : String} :
    AgentConfig.validateNameCharacters text = .ok text ↔
      LineRun AgentConfig.isNameChar text.toList := by
  have hmatch : matchLine [.many AgentConfig.isNameChar] text.toList = true ↔
      LineRun AgentConfig.isNameChar text.toList := by
    simp only [matchLine_iff, fullMatch_run_iff, LineRun]
  rw [AgentConfig.validateNameCharacters, ← hmatch]
  split_ifs with h
  · simp [h]
  · simp [h]

theorem nameExact_iff
    (text : String) :
    NameExact text ↔ ¬ NameWithNewline text := by
  constructor
  · rintro hexact ⟨name, htext, hrun, hlength⟩
    have hvalid : AgentConfig.ValidName text := by
      rw [AgentConfig.ValidName, ← String.length_toList, htext, List.length_append]
      exact ⟨by simp, hlength, validNameCharacters_iff.mpr (htext ▸ .inr ⟨name, rfl, hrun⟩)⟩
    have hclass := hexact hvalid
    rw [htext] at hclass
    exact not_run_newline (by decide) name hclass
  · intro hnot hvalid
    obtain ⟨-, hlength, hcharacters⟩ := hvalid
    rcases validNameCharacters_iff.mp hcharacters with hrun | ⟨name, htext, hrun⟩
    · exact hrun
    · refine absurd ⟨name, htext, hrun, ?_⟩ hnot
      rw [← String.length_toList, htext, List.length_append] at hlength
      exact hlength

variable {repr}

/-- What an accepted string is, and how it is read. -/
theorem exists_of_fromString
    {text : String}
    {spec : ModelStringSpec}
    (h : ModelStringSpec.fromString repr text = .ok spec) :
    text = spec.provider ++ ":" ++ spec.id ∧ Run isWordChar spec.provider.toList ∧
      spec.provider ∈ supportedProviders ∧ LineRun isModelIdChar spec.id.toList := by
  obtain ⟨provider, id, hsplit, hmem, hid, hprovider', hid'⟩ := fromString_eq_ok_iff.mp h
  obtain ⟨htext, -⟩ := (splitFirst_eq_some_iff ':' text.toList provider id).mp hsplit
  rw [hprovider', hid', String.toList_ofList, String.toList_ofList]
  refine ⟨String.toList_injective ?_, run_of_supported hmem, hmem, hid⟩
  rw [htext]
  simp

theorem modelExact_iff
    (text : String) :
    ModelExact repr text ↔ ¬ ModelWithNewline text := by
  constructor
  · rintro hexact ⟨provider, id, htext, hmem, hrun⟩
    have hword := run_of_supported hmem
    have hcolon : ':' ∉ provider := fun hmem => absurd (hword.2 _ hmem) (by decide)
    have hsplit : splitFirst ':' text.toList = some (provider, id ++ ['\n']) := by
      rw [htext]
      exact (splitFirst_append_iff ':' provider _).mpr hcolon
    have hne : String.ofList (id ++ ['\n']) ≠ "" := ofList_ne_empty_iff.mpr (by simp)
    let spec : ModelStringSpec :=
      ⟨String.ofList provider, String.ofList (id ++ ['\n']), ne_empty_of_supported hmem, hne⟩
    have hspec : ModelStringSpec.fromString repr text = .ok spec :=
      fromString_eq_ok_iff.mpr
        ⟨provider, id ++ ['\n'], hsplit, hmem, .inr ⟨id, rfl, hrun⟩, rfl, rfl⟩
    have hclass := (hexact spec hspec).2.2
    rw [String.toList_ofList] at hclass
    exact not_run_newline (by decide) id hclass
  · intro hnot spec hspec
    obtain ⟨htext, hword, hmem, hrun | ⟨id, hid, hrun⟩⟩ := exists_of_fromString hspec
    · exact ⟨htext, hword, hrun⟩
    · refine absurd ⟨spec.provider.toList, id, ?_, ?_, hrun⟩ hnot
      · rw [htext, ← hid]
        simp
      · rwa [String.ofList_toList]

/-- Both grammars are exact for every text but a correct one with a newline after it. -/
theorem grammars_exact_iff
    (repr : String → String)
    (text : String) :
    NameExact text ∧ ModelExact repr text ↔ ¬ NameWithNewline text ∧ ¬ ModelWithNewline text :=
  and_congr (nameExact_iff text) (modelExact_iff text)

/-- A name and a model string, each with a newline, are accepted with it. -/
theorem newline_accepted :
    ¬ NameExact "agent\n" ∧ ¬ ModelExact id "openai:gpt-4o\n" := by
  rw [nameExact_iff, modelExact_iff, not_not, not_not]
  exact ⟨⟨"agent".toList, by decide +kernel⟩,
    ⟨"openai".toList, "gpt-4o".toList, by decide +kernel⟩⟩

end YamlAgno
