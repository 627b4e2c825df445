import Transparency.Command.Pattern
import Transparency.Note
import Transparency.Text.Decimal
import Transparency.Text.Natural

/-! Filters: which notes are shown.

A filter is a list of directives with commas between them. A directive is a level, which is for all notes;
a target, which shows all notes of the parts of the program whose names begin with it; or both, as
`target=level`. In brackets behind the target it may name a span, or in braces within them a field, that
a note must have to be meant, and a value for the field: no note of this program is in a span, and each
has one field, its message, which is held against no value. Of the directives that mean a note the one with the longest target decides, then one that names
the field, then the last. -/
namespace Transparency.Command

/-- How detailed a note may be to be shown; `none` shows nothing. -/
abbrev Threshold := Option Level

def Threshold.admits (threshold : Threshold) (level : Level) : Bool :=
  match threshold with
  | none => false
  | some most => level.rank ≤ most.rank

/-- What a directive asks of a note beside its target: nothing, a message, or something that no note
has. -/
inductive Demand where
  | nothing
  | message
  | unmet
deriving DecidableEq, Repr

/-- An empty target is for all notes. -/
structure Directive where
  target : List Char
  demand : Demand
  threshold : Threshold
deriving DecidableEq, Repr

abbrev Filter := List Directive

/-! ### Reading -/

/-- A level by its number or by its name, in any case. -/
def threshold? (text : List Char) : Option Threshold :=
  match Text.Natural.parse text with
  | .ok n =>
    match n.toNat with
    | 0 => some none
    | 1 => some (some .error)
    | 2 => some (some .warn)
    | 3 => some (some .info)
    | 4 => some (some .debug)
    | 5 => some (some .trace)
    | _ => none
  | .error _ =>
    match String.ofList (text.map Char.toLower) with
    | "off" => some none
    | "error" => some (some .error)
    | "warn" => some (some .warn)
    | "info" => some (some .info)
    | "debug" => some (some .debug)
    | "trace" => some (some .trace)
    | _ => none

/-- The level behind an equals sign. Without one, everything is shown. -/
def givenThreshold? (text : List Char) : Option Threshold :=
  if text.isEmpty then some (some .trace) else threshold? text

/-- Whether a target may begin with this character. -/
def beginsTarget (c : Char) : Bool :=
  c = '-' || c = ':' || c = '_' || Text.Letter.isLetter c || Text.Letter.isNumber c

/-- A field, of which a value may be asked: a number, or what a pattern matches. -/
def fieldDemand? (field : List Char) : Option Demand :=
  match field.dropWhile (· ≠ '=') with
  | [] =>
    if field.isEmpty then none
    else some (if field = "message".toList then .message else .unmet)
  | _ :: values =>
    let value := values.takeWhile (· ≠ '=')
    if Text.Decimal.isDecimal value || Pattern.isPattern value then some .unmet else none

/-- The length of a text in UTF-8. -/
def size (text : List Char) : Nat := text.foldl (fun size c => size + c.utf8Size) 0

/-- What follows the first bytes of a text. -/
def dropBytes : (bytes : Nat) → List Char → List Char
  | 0, text => text
  | _, [] => []
  | bytes, c :: rest => dropBytes (bytes - c.utf8Size) rest

/-- The first bytes of a text. -/
def takeBytes : (bytes : Nat) → List Char → List Char
  | 0, _ | _, [] => []
  | bytes, c :: rest => c :: takeBytes (bytes - c.utf8Size) rest

/-- What stands in brackets, whose opening one is already read, and the text behind them: the name of a
span, and in braces a field, which is read from what `given` has in its place. -/
def bracketed? (given : List Char → List Char) (text : List Char) : Option (Demand × List Char) :=
  let name := text.takeWhile fun c => c ≠ ']' && c ≠ '{'
  match text.drop name.length with
  | ']' :: rest => some (.unmet, rest)
  | '{' :: fieldAndRest =>
    let field := fieldAndRest.takeWhile (· ≠ '}')
    match fieldAndRest.drop field.length with
    | '}' :: ']' :: rest =>
      match fieldDemand? (takeBytes (size field) (given fieldAndRest)) with
      | some demand => some (if name.isEmpty then demand else .unmet, rest)
      | none => none
    | _ => none
  | _ => none

/-- Reads a directive. The places of its signs are found in the text without the white space around it,
but what stands between them is taken from the same places of the text as it is, counted in bytes. -/
def Directive.parse? (text : List Char) : Option Directive :=
  let trimmed := Text.Blank.trim text
  -- The given text from where `rest` begins in the trimmed one.
  let given (rest : List Char) : List Char := dropBytes (size trimmed - size rest) text
  let demanding (target rest : List Char) : Option Directive := do
    match ← bracketed? given rest with
    | (demand, []) => some ⟨target, demand, some .trace⟩
    | (demand, '=' :: level) => some ⟨target, demand, ← givenThreshold? (given level)⟩
    | _ => none
  match trimmed with
  | [] => none
  | '[' :: rest => demanding [] rest
  | c :: _ =>
    if beginsTarget c then
      let name := trimmed.takeWhile fun c => c ≠ '=' && c ≠ '['
      let target := takeBytes (size name) text
      match trimmed.drop name.length with
      | '=' :: level => do some ⟨target, .nothing, ← givenThreshold? (given level)⟩
      | '[' :: rest => demanding target rest
      | _ =>
        match threshold? text with
        | some threshold => some ⟨[], .nothing, threshold⟩
        | none => some ⟨text, .nothing, some .trace⟩
    else none

/-- Cuts at every comma; empty pieces are left out. `piece` is the one that is open, last first. -/
def pieces (piece : List Char) : List Char → List (List Char)
  | [] => if piece.isEmpty then [] else [piece.reverse]
  | ',' :: rest => if piece.isEmpty then pieces [] rest else piece.reverse :: pieces [] rest
  | c :: rest => pieces (c :: piece) rest

/-- Without any directive, errors are shown. -/
def Filter.parse? (text : String) : Option Filter :=
  match pieces [] text.toList with
  | [] => some [⟨[], .nothing, some .error⟩]
  | texts => texts.mapM Directive.parse?

/-! ### Deciding -/

/-- How closely a directive fits a note's target, if it means the note at all. -/
def Directive.fit? (target : List Char) (d : Directive) : Option Nat :=
  if d.target.isPrefixOf target then
    match d.demand with
    | .nothing => some (2 * d.target.length)
    | .message => some (2 * d.target.length + 1)
    | .unmet => none
  else none

/-- The threshold of the best directive for a target, given the best one so far. -/
def Filter.thresholdOn (target : List Char) (best : Nat) (threshold : Threshold) : Filter → Threshold
  | [] => threshold
  | d :: rest =>
    match d.fit? target with
    | some fit =>
      if best ≤ fit then thresholdOn target fit d.threshold rest
      else thresholdOn target best threshold rest
    | none => thresholdOn target best threshold rest

def Filter.admits (filter : Filter) (n : Note) : Bool :=
  (filter.thresholdOn n.target.toList 0 none).admits n.level

/-- Warnings and errors. -/
def Filter.standard : Filter := [⟨[], .nothing, some .warn⟩]

/-- All but traces. -/
def Filter.verbose : Filter := [⟨[], .nothing, some .debug⟩]

end Transparency.Command
