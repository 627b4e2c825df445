import Transparency.Text.Blank
import Transparency.Text.Hex
import Transparency.Text.Letter

/-! Patterns: regular expressions that the value of a field is held against.

No note has a field beside its message, and a message is never held against a pattern. So all that matters
is whether a text is a pattern.

A pattern is run as an automaton over UTF-8 that knows no table of characters. It is refused if it is not
well formed, and also if it cannot be run in this way: letters of either case, classes of digits, white
space or word characters, and edges of words all need such a table. Where a pattern asks for ASCII
alone no table is needed, but what could match a part of a character only is refused: a dot, a negation,
a byte beyond ASCII.

A pattern in a directive ends before the first closing brace. So what needs one (counted repetitions,
numbers and names in braces) is never well formed. -/
namespace Transparency.Command.Pattern

/-- How the signs of a pattern are understood. -/
structure Mode where
  caseless : Bool := false
  /-- White space and comments stand for nothing. -/
  spaced : Bool := false
  ascii : Bool := false

/-- The flags of a list, in order; those behind a dash are switched off. -/
def Mode.switch (on : Bool) (m : Mode) : List Char → Mode
  | [] => m
  | '-' :: rest => m.switch false rest
  | 'i' :: rest => {m with caseless := on}.switch on rest
  | 'x' :: rest => {m with spaced := on}.switch on rest
  | 'u' :: rest => {m with ascii := !on}.switch on rest
  | _ :: rest => m.switch on rest

/-- Where the reading of a pattern stands. -/
structure State where
  text : List Char
  mode : Mode := {}
  /-- The names of the groups so far. -/
  names : List (List Char) := []

/-- Without a result the text is no pattern. -/
abbrev Scan := StateT State Option

/-! ### Nesting -/

/-- Items in a row: how many, and how deep the deepest of them is. -/
structure Row where
  count : Nat := 0
  deepest : Nat := 0

def Row.push (r : Row) (depth : Nat) : Row := ⟨r.count + 1, max r.deepest depth⟩

/-- A row is one level above its items, unless it is but one of them. -/
def Row.depth (r : Row) : Nat := if r.count ≤ 1 then r.deepest else r.deepest + 1

/-- The deepest that a pattern may be. -/
def maxDepth : Nat := 250

/-! ### Characters -/

def next : Scan Char := do
  match (← get).text with
  | [] => failure
  | c :: rest => modify ({· with text := rest}); return c

/-- Leaves a place out of which `rest` is what follows. -/
def continueAt (rest : List Char) : Scan Unit := modify ({· with text := rest})

/-- Text without the white space and the comments at its front; `inComment` until the end of a line. -/
def unspaced (inComment : Bool) : List Char → List Char
  | [] => []
  | c :: rest =>
    if inComment then unspaced (c ≠ '\n') rest
    else if c = '#' then unspaced true rest
    else if Text.Blank.isBlank c then unspaced false rest
    else c :: rest

def skipSpace : Scan Unit :=
  modify fun s => if s.mode.spaced then {s with text := unspaced false s.text} else s

/-! ### Escapes -/

/-- What one sign stands for. -/
inductive Sign where
  /-- A character; `asByte` if it is given as the number of a byte. -/
  | literal (c : Char) (asByte : Bool)
  /-- Digits, white space or word characters, or all others. -/
  | category (negated : Bool)
  | wordEdge
  | textEdge

/-- A character by its number, of which `left` hexadecimal digits are to come. -/
def numbered : (left : Nat) → (value : Nat) → Scan Char
  | 0, value => if value.isValidChar then return Char.ofNat value else failure
  | left + 1, value => do
    skipSpace
    let c ← next
    match if c.toNat < 0x80 then Text.Hex.value? (UInt8.ofNat c.toNat) else none with
    | some digit => numbered left (16 * value + digit)
    | none => failure

/-- What stands behind a backslash. -/
def escape : Scan Sign := do
  match ← next with
  | 'x' => return .literal (← numbered 2 0) true
  | 'u' => return .literal (← numbered 4 0) false
  | 'U' => return .literal (← numbered 8 0) false
  | 'a' => return .literal '\x07' false
  | 'f' => return .literal '\x0c' false
  | 'n' => return .literal '\n' false
  | 'r' => return .literal '\r' false
  | 't' => return .literal '\t' false
  | 'v' => return .literal '\x0b' false
  | 'd' | 's' | 'w' => return .category false
  | 'D' | 'S' | 'W' => return .category true
  | 'A' | 'z' => return .textEdge
  | 'b' | 'B' | '<' | '>' => return .wordEdge
  | c => if c.toNat < 0x80 ∧ !c.isAlphanum then return .literal c false else failure

/-- A sign by itself. -/
def runnable (m : Mode) : Sign → Bool
  | .literal c asByte => if m.ascii then !asByte || c.toNat < 0x80 else !m.caseless
  | .category negated => m.ascii && !negated
  | .wordEdge => m.ascii
  | .textEdge => true

/-! ### Classes -/

/-- A sign as a member of a class. -/
def isMember (m : Mode) : Sign → Bool
  | .literal c _ => if m.ascii then c.toNat < 0x80 else !m.caseless
  | .category negated => m.ascii && !negated
  | .wordEdge | .textEdge => false

/-- A class with a name, as a member of a class. -/
def isNamedMember (m : Mode) (negated : Bool) : Bool := if m.ascii then !negated else !m.caseless

def classNames : List String :=
  ["alnum", "alpha", "ascii", "blank", "cntrl", "digit", "graph", "lower", "print", "punct", "space",
    "upper", "word", "xdigit"]

/-- The class whose name begins with the text, behind its opening bracket, and what follows it. -/
def namedClass? : List Char → Option (Bool × List Char)
  | ':' :: text =>
    let negated := text.head? = some '^'
    let text := if negated then text.tail else text
    let name := text.takeWhile (· ≠ ':')
    match text.drop name.length with
    | ':' :: ']' :: rest =>
      if classNames.contains (String.ofList name) then some (negated, rest) else none
    | _ => none
  | _ => none

/-- The members of a class so far. -/
structure Members where
  row : Row := {}
  /-- The depth of the operands to the left. -/
  left : Option Nat := none
  /-- There has been nothing but dashes. -/
  fresh : Bool := true

def Members.push (m : Members) (depth : Nat) : Members := {m with row := m.row.push depth, fresh := false}

def Members.depth (m : Members) : Nat :=
  match m.left with
  | none => m.row.depth
  | some left => max left m.row.depth + 1

/-- The members behind an operator. -/
def Members.operate (m : Members) : Members := {left := some m.depth, fresh := false}

def classSign : Scan Sign := do
  match ← next with
  | '\\' => escape
  | c => return .literal c false

/-- The sign that decides whether a dash makes a range; `rest` is what follows the dash. In a comment it is
looked for too. -/
def behindDash (m : Mode) (rest : List Char) : Option Char :=
  if m.spaced then
    match rest.dropWhile Text.Blank.isBlank with
    | '#' :: comment => (comment.dropWhile Text.Blank.isBlank).head?
    | text => text.head?
  else rest.head?

/-- A member, or a range of them. -/
def member : Scan Unit := do
  let mode := (← get).mode
  let first ← classSign
  guard (isMember mode first)
  skipSpace
  match (← get).text with
  | '-' :: rest =>
    if behindDash mode rest ≠ some ']' ∧ behindDash mode rest ≠ some '-' then
      continueAt rest
      skipSpace
      let last ← classSign
      guard (isMember mode last)
      match first, last with
      | .literal a _, .literal b _ => guard (a ≤ b)
      | _, _ => failure
  | _ => return

/-- Reads the sign of a negation. -/
def negation : Scan Unit := do
  skipSpace
  let s ← get
  if s.text.head? = some '^' then
    guard !s.mode.ascii
    continueAt s.text.tail

/-- The depth of a class, whose opening bracket and negation are already read. -/
def members : (bound : Nat) → Members → Scan Nat
  | 0, _ => failure
  | bound + 1, m => do
    skipSpace
    let s ← get
    match s.text with
    | [] => failure
    | '-' :: '-' :: rest =>
      if m.fresh then
        plainMember s.mode
        continueAt ('-' :: rest)
        members bound {m.push 0 with fresh := true}
      else
        continueAt rest
        members bound m.operate
    | '-' :: rest =>
      if m.fresh then
        plainMember s.mode
        continueAt rest
        members bound {m.push 0 with fresh := true}
      else
        member
        members bound (m.push 0)
    | ']' :: rest =>
      continueAt rest
      if m.fresh ∧ m.row.count = 0 then
        plainMember s.mode
        members bound (m.push 0)
      else return m.depth
    | '&' :: '&' :: rest | '~' :: '~' :: rest =>
      continueAt rest
      members bound m.operate
    | '[' :: rest =>
      match namedClass? rest with
      | some (negated, rest) =>
        guard (isNamedMember s.mode negated)
        continueAt rest
        members bound (m.push 0)
      | none =>
        continueAt rest
        negation
        let depth ← members bound {}
        members bound (m.push (depth + 1))
    | _ =>
      member
      members bound (m.push 0)
where
  /-- A dash or a bracket that stands for itself. -/
  plainMember (mode : Mode) : Scan Unit := guard (isMember mode (.literal '-' false))

/-! ### Groups -/

def isNameBegin (c : Char) : Bool := c = '_' || Text.Letter.isLetter c

def isNamePart (c : Char) : Bool :=
  isNameBegin c || Text.Letter.isNumber c || c = '.' || c = '[' || c = ']'

/-- The name of a group, which no other group has, and the sign that ends it. -/
def groupName : Scan Unit := do
  let s ← get
  let name := s.text.takeWhile isNamePart
  guard (name.head?.any isNameBegin && !s.names.contains name)
  match s.text.drop name.length with
  | '>' :: rest => set {s with text := rest, names := name :: s.names}
  | _ => failure

/-- Switches the mode by flags, and tells whether a group begins behind them. -/
def flags : Scan Bool := do
  let s ← get
  let flags := s.text.takeWhile fun c => c ≠ ':' && c ≠ ')'
  guard (flags.all "-imsURux".toList.contains && decide flags.Nodup && flags.getLast? ≠ some '-')
  match s.text.drop flags.length with
  | ':' :: rest => set {s with text := rest, mode := s.mode.switch true flags}; return true
  | ')' :: rest =>
    guard !flags.isEmpty
    set {s with text := rest, mode := s.mode.switch true flags}
    return false
  | _ => failure

/-- What follows an opening parenthesis; tells whether a group begins with it, or flags stand alone. -/
def opening : Scan Bool := do
  skipSpace
  match (← get).text with
  | '?' :: 'P' :: '<' :: rest | '?' :: '<' :: rest => continueAt rest; groupName; return true
  | '?' :: rest => continueAt rest; flags
  | _ => return true

/-! ### Patterns -/

/-- The branches of a group so far, and the items of the last one. -/
structure Branches where
  closed : Row := {}
  row : Row := {}
  /-- The depth of the last item, if it can be repeated. -/
  last : Option Nat := none

namespace Branches

def push (b : Branches) (depth : Nat) : Branches := {b with row := b.row.push depth, last := some depth}

/-- Flags are items that cannot be repeated. -/
def pushFlags (b : Branches) : Branches := {b with row := b.row.push 0, last := none}

def repeated (b : Branches) (depth : Nat) : Branches :=
  {b with row := {b.row with deepest := max b.row.deepest (depth + 1)}, last := some (depth + 1)}

def branch (b : Branches) : Branches := {closed := b.closed.push b.row.depth}

def depth (b : Branches) : Nat := (b.closed.push b.row.depth).depth

end Branches

/-- The depth of a group, or of the whole pattern, from here to its end. -/
def branches : (bound : Nat) → (inGroup : Bool) → Branches → Scan Nat
  | 0, _, _ => failure
  | bound + 1, inGroup, b => do
    skipSpace
    let s ← get
    match s.text with
    | [] => guard !inGroup; return b.depth
    | ')' :: rest => guard inGroup; continueAt rest; return b.depth
    | '|' :: rest => continueAt rest; branches bound inGroup b.branch
    | '(' :: rest =>
      continueAt rest
      if ← opening then
        let depth ← branches bound true {}
        modify ({· with mode := s.mode})
        branches bound inGroup (b.push (depth + 1))
      else branches bound inGroup b.pushFlags
    | '[' :: rest =>
      continueAt rest
      negation
      let depth ← members bound {}
      branches bound inGroup (b.push (depth + 1))
    | '{' :: _ => failure
    | '?' :: '?' :: rest | '*' :: '?' :: rest | '+' :: '?' :: rest
    | '?' :: rest | '*' :: rest | '+' :: rest =>
      match b.last with
      | some depth => continueAt rest; branches bound inGroup (b.repeated depth)
      | none => failure
    | '.' :: rest =>
      guard !s.mode.ascii
      continueAt rest
      branches bound inGroup (b.push 0)
    | '^' :: rest | '$' :: rest =>
      continueAt rest
      branches bound inGroup (b.push 0)
    | '\\' :: rest =>
      continueAt rest
      guard (runnable s.mode (← escape))
      branches bound inGroup (b.push 0)
    | c :: rest =>
      guard (runnable s.mode (.literal c false))
      continueAt rest
      branches bound inGroup (b.push 0)

/-- Every round reads a character, so the length of the text bounds them. -/
def isPattern (text : List Char) : Bool :=
  match (branches (text.length + 1) false {}).run {text} with
  | some (depth, _) => depth ≤ maxDepth
  | none => false

end Transparency.Command.Pattern
