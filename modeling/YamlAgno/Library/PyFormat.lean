import YamlAgno.Library.Fallible
import YamlAgno.Library.PyText

/-!
# The template language of `str.format`

`template.format(**kwargs)` as CPython reads it: a template is scanned from
left to right into literal text and replacement fields, a field name is a
keyword followed by attribute and item accessors, a field may carry a
conversion and a format specification, and the specification may itself hold
replacement fields one level deep.

Scanning and rendering are interleaved in the interpreter, so a malformed tail
is only reported after the fields before it have been rendered.  `markup` keeps
that order: it returns the segments read so far together with the error that
stopped it.

What a field does to the object it names (attribute access, item access,
`str`/`repr`/`ascii`, `format`) is the object's own business and enters through
`FormatOps`.
-/

namespace PyFormat

/-- Exceptions raised while a template is expanded, by class. -/
inductive PyException where
  | keyError (key : String)
  | indexError (message : String)
  | valueError (message : String)
  | attributeError (message : String)
  | other (cls message : String)
deriving DecidableEq

/-- What the objects behind the fields can do. -/
structure FormatOps (V : Type) where
  getAttr : V → String → Except PyException V
  getItem : V → String → Except PyException V
  getIndex : V → Nat → Except PyException V
  convert : Char → V → Except PyException V
  format : V → String → Except PyException String
  /-- Value of a decimal digit, ASCII or not. -/
  decimal : Char → Option Nat

/-- One piece of a template. -/
inductive Segment where
  | literal (text : List Char)
  | field (name : List Char) (conversion : Option Char)
      (spec : List Char) (nested : Bool)
deriving DecidableEq

/-- Reads a field name up to `}`, `:` or `!`; brackets protect these characters. -/
def scanName : Bool → List Char → Except String (List Char × Char × List Char)
  | _, [] => .error "expected '\x7d' before end of string"
  | true, c :: cs =>
      (scanName (c != ']') cs).map (fun r => (c :: r.1, r.2))
  | false, c :: cs =>
      if c = '{' then .error "unexpected '\x7b' in field name"
      else if c = '}' ∨ c = ':' ∨ c = '!' then .ok ([], c, cs)
      else (scanName (c == '[') cs).map (fun r => (c :: r.1, r.2))

/-- Reads a format specification up to the brace that closes its field. -/
def scanSpec : Nat → List Char → Except String (List Char × Bool × List Char)
  | _, [] => .error "unmatched '\x7b' in format spec"
  | depth, c :: cs =>
      if c = '{' then
        (scanSpec (depth + 1) cs).map (fun r => (c :: r.1, true, r.2.2))
      else if c = '}' then
        match depth with
        | 0 => .ok ([], false, cs)
        | depth + 1 =>
            (scanSpec depth cs).map (fun r => (c :: r.1, r.2))
      else (scanSpec depth cs).map (fun r => (c :: r.1, r.2))

/-- Reads one replacement field, past its opening brace. -/
def parseField (cs : List Char) : Except String (Segment × List Char) := do
  let (name, stop, rest) ← scanName false cs
  if stop = '}' then
    return (.field name none [] false, rest)
  else if stop = ':' then
    let (spec, nested, rest) ← scanSpec 0 rest
    return (.field name none spec nested, rest)
  else
    match rest with
    | [] => .error "end of string while looking for conversion specifier"
    | conversion :: [] =>
        let (spec, nested, rest) ← scanSpec 0 []
        return (.field name (some conversion) spec nested, rest)
    | conversion :: c :: rest =>
        if c = '}' then
          return (.field name (some conversion) [] false, rest)
        else if c = ':' then
          let (spec, nested, rest) ← scanSpec 0 rest
          return (.field name (some conversion) spec nested, rest)
        else
          .error "expected ':' after conversion specifier"

/-- Literal text before the next brace, and what starts there. -/
def scanLiteral : List Char → List Char × List Char
  | [] => ([], [])
  | c :: cs =>
      if c = '{' ∨ c = '}' then ([], c :: cs)
      else (c :: (scanLiteral cs).1, (scanLiteral cs).2)

/--
Segments of a template and the error that ends them, if any.  Every round
consumes a character, so the template's length is enough fuel.
-/
def markupFrom : Nat → List Char → List Segment × Option String
  | 0, _ => ([], none)
  | fuel + 1, cs =>
      match scanLiteral cs with
      | (text, []) => ([.literal text], none)
      | (text, brace :: rest) =>
          match rest with
          | [] =>
              if brace = '}' then
                ([], some "Single '\x7d' encountered in format string")
              else
                ([], some "Single '\x7b' encountered in format string")
          | c :: rest' =>
              if brace = c then
                -- a doubled brace stands for one literal brace
                let tail := markupFrom fuel rest'
                (.literal (text ++ [brace]) :: tail.1, tail.2)
              else if brace = '}' then
                ([], some "Single '\x7d' encountered in format string")
              else
                match parseField (c :: rest') with
                | .error message => ([], some message)
                | .ok (field, rest'') =>
                    let tail := markupFrom fuel rest''
                    (.literal text :: field :: tail.1, tail.2)

/-- Segments of a whole template. -/
def markup (template : List Char) : List Segment × Option String :=
  markupFrom (template.length + 1) template

section Rendering

variable {V : Type} (ops : FormatOps V)

/-- Reads a non-negative decimal index; `none` when the text is not one. -/
def getInteger (text : List Char) : Except PyException (Option Nat) :=
  match text with
  | [] => .ok none
  | _ => go 0 text
where
  go (acc : Nat) : List Char → Except PyException (Option Nat)
    | [] => .ok (some acc)
    | c :: cs =>
        match ops.decimal c with
        | none => .ok none
        | some d =>
            if acc * 10 + d > 9223372036854775807 then
              .error (.valueError "Too many decimal digits in format string")
            else go (acc * 10 + d) cs

/-- Text up to the next accessor, and the accessors. -/
def scanFirst : List Char → List Char × List Char
  | [] => ([], [])
  | c :: cs =>
      if c = '.' ∨ c = '[' then ([], c :: cs)
      else (c :: (scanFirst cs).1, (scanFirst cs).2)

/-- Applies the accessors of a field name from left to right. -/
def applyAccessors : Nat → V → List Char → Except PyException V
  | 0, obj, _ => .ok obj
  | _, obj, [] => .ok obj
  | fuel + 1, obj, c :: cs => do
      if c = '.' then
        let (name, rest) := scanFirst cs
        if name = [] then
          .error (.valueError "Empty attribute in format string")
        else
          let obj ← ops.getAttr obj (String.ofList name)
          applyAccessors fuel obj rest
      else if c = '[' then
        match PyText.splitFirst ']' cs with
        | none => .error (.valueError "Missing ']' in format string")
        | some (name, rest) =>
            let index ← getInteger ops name
            if name = [] then
              .error (.valueError "Empty attribute in format string")
            else
              let obj ←
                match index with
                | none => ops.getItem obj (String.ofList name)
                | some i => ops.getIndex obj i
              applyAccessors fuel obj rest
      else
        .error (.valueError
          "Only '.' or '[' may follow ']' in format field specifier")

/--
The object a field name denotes.  There are no positional arguments, so an
empty or numeric first part is always out of range.
-/
def getField
    (kwargs : List (String × V))
    (name : List Char) :
    Except PyException V := do
  let (first, rest) := scanFirst name
  let index ← getInteger ops first
  match first, index with
  | [], _ =>
      .error (.indexError
        "Replacement index 0 out of range for positional args tuple")
  | _, some i =>
      .error (.indexError
        ("Replacement index " ++ toString i ++
          " out of range for positional args tuple"))
  | _, none =>
      match kwargs.lookup (String.ofList first) with
      | none => .error (.keyError (String.ofList first))
      | some obj => applyAccessors ops (rest.length + 1) obj rest

/-- `!r`, `!s` and `!a`; any other conversion is refused. -/
def doConversion
    (obj : V) :
    Option Char → Except PyException V
  | none => .ok obj
  | some c =>
      if c = 'r' ∨ c = 's' ∨ c = 'a' then ops.convert c obj
      else .error (.valueError
        ("Unknown conversion specifier " ++ String.ofList [c]))

/-- Renders a template; `depth` bounds the nesting of format specifications. -/
def buildString
    (kwargs : List (String × V)) :
    Nat → List Char → Except PyException String
  | 0, _ => .error (.valueError "Max string recursion exceeded")
  | depth + 1, template => do
      let (segments, stop) := markup template
      let parts ← segments.mapM (fun segment =>
        match segment with
        | .literal text => Except.ok (String.ofList text)
        | .field name conversion spec nested => do
            let obj ← getField ops kwargs name
            let obj ← doConversion ops obj conversion
            let spec ←
              if nested then buildString kwargs depth spec
              else Except.ok (String.ofList spec)
            ops.format obj spec)
      match stop with
      | some message => .error (.valueError message)
      | none => return String.join parts

/-- Python's `template.format(**kwargs)`. -/
def formatTemplate
    (kwargs : List (String × V))
    (template : String) :
    Except PyException String :=
  buildString ops kwargs 2 template.toList

/-! ## Piece by piece -/

/-- What one piece of a template becomes; its specification has one level of nesting. -/
def renderSegment
    (kwargs : List (String × V)) :
    Segment → Except PyException String
  | .literal text => .ok (String.ofList text)
  | .field name conversion spec nested => do
      let obj ← getField ops kwargs name
      let obj ← doConversion ops obj conversion
      let spec ←
        if nested then buildString ops kwargs 1 spec
        else Except.ok (String.ofList spec)
      ops.format obj spec

/-- The first error that the pieces of a template raise, from left to right. -/
def firstFailure
    (kwargs : List (String × V))
    (template : String) :
    Option PyException :=
  (markup template.toList).1.findSome? fun segment =>
    Fallible.errorOf? (renderSegment ops kwargs segment)

theorem formatTemplate_eq
    (kwargs : List (String × V))
    (template : String) :
    formatTemplate ops kwargs template = (do
      let parts ← (markup template.toList).1.mapM (renderSegment ops kwargs)
      match (markup template.toList).2 with
      | some message => .error (.valueError message)
      | none => return String.join parts) := by
  rfl

/-- If a piece fails, the template fails as the first one that does. -/
theorem formatTemplate_of_failure
    {kwargs : List (String × V)}
    {template : String}
    {e : PyException}
    (h : firstFailure ops kwargs template = some e) :
    formatTemplate ops kwargs template = .error e := by
  rw [formatTemplate_eq]
  rw [firstFailure, ← Fallible.errorOf?_mapM] at h
  cases hparts : (markup template.toList).1.mapM (renderSegment ops kwargs) with
  | ok parts =>
      rw [hparts] at h
      cases h
  | error e' =>
      rw [hparts] at h
      cases h
      rfl

/-- If no piece fails, a well-formed template becomes the text of its pieces. -/
theorem formatTemplate_of_no_failure
    {kwargs : List (String × V)}
    {template : String}
    (h : firstFailure ops kwargs template = none) :
    ∃ parts,
      List.Forall₂ (fun segment text => renderSegment ops kwargs segment = .ok text)
        (markup template.toList).1 parts ∧
      formatTemplate ops kwargs template =
        match (markup template.toList).2 with
        | some message => .error (.valueError message)
        | none => .ok (String.join parts) := by
  rw [firstFailure, ← Fallible.errorOf?_mapM, Fallible.errorOf?_eq_none_iff] at h
  obtain ⟨parts, hparts⟩ := h
  refine ⟨parts, Fallible.mapM_eq_ok_iff.mp hparts, ?_⟩
  rw [formatTemplate_eq, hparts]
  rfl

end Rendering

/-- Operations of plain strings, for templates without conversions. -/
def stringOps : FormatOps String where
  getAttr _ name :=
    .error (.attributeError ("'str' object has no attribute '" ++ name ++ "'"))
  getItem _ _ :=
    .error (.other "TypeError" "string indices must be integers, not 'str'")
  getIndex s i :=
    match s.toList[i]? with
    | some c => .ok (String.ofList [c])
    | none => .error (.indexError "string index out of range")
  convert c s :=
    if c = 's' then .ok s
    else .error (.other "NotImplementedError" "only the s conversion of a str")
  format s spec :=
    if spec = "" then .ok s
    else .error (.valueError "Invalid format specifier")
  decimal c :=
    if c.isDigit then some (c.toNat - '0'.toNat) else none

example :
    formatTemplate stringOps [("workflow_id", "w-7")] "workflow:\x7bworkflow_id\x7d" =
      .ok "workflow:w-7" := by
  decide

end PyFormat
