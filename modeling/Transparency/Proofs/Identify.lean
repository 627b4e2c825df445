import Transparency.Proofs.Arguments
import Transparency.Proofs.Canonical
import Transparency.Proofs.Held
import Transparency.Proofs.Pairing
import Transparency.Proofs.Report
import Transparency.Proofs.Showing

/-! What a run prints identifies the record bytes that it was given.

A run that decodes a record prints the report of the record that its files hold. A report tells which record it
is of, and a record tells its bytes as long as nothing may trail them; so two runs of one command print the same
exactly if their files hold the same bytes, however these are written down and however the command line is put
together (`outputs_identify_records`). -/
namespace Transparency.Command
open Wire

/-! ### Work that succeeds -/

namespace Work
variable {α β : Type}

theorem bind_ok_iff {w : Work α} {f : α → Work β} {notes after : List Note} {value : β} :
    (w >>= f) notes = .ok value after ↔ ∃ a between, w notes = .ok a between ∧ f a between = .ok value after := by
  show EStateM.bind w f notes = _ ↔ _
  unfold EStateM.bind
  cases w notes <;> simp

theorem pure_ok_iff {value result : α} {notes after : List Note} :
    (pure value : Work α) notes = .ok result after ↔ value = result ∧ notes = after := by
  show EStateM.Result.ok value notes = _ ↔ _
  simp

theorem input_ok {files : Files} {format : InputFormat} {name : String} {notes after : List Note} {bytes : Bytes}
    (h : input files format name notes = .ok bytes after) :
    ∃ contents, files name = .ok contents ∧ format.Holds contents bytes := by
  unfold input at h
  cases file : files name with
  | error error =>
    rw [file] at h
    cases h
  | ok contents =>
    rw [file] at h
    obtain ⟨_, between, -, h⟩ := bind_ok_iff.1 h
    refine ⟨contents, rfl, InputFormat.decode_ok_iff_holds.1 ?_⟩
    cases decoded : format.decode contents with
    | error error =>
      rw [decoded] at h
      cases h
    | ok read =>
      rw [decoded] at h
      rw [(pure_ok_iff.1 h).1]

theorem ofDecoded_ok {d : Decoded α} {notes after : List Note} {value : α}
    (h : ofDecoded d notes = .ok value after) : d.result = .ok value := by
  obtain ⟨_, between, -, h⟩ := bind_ok_iff.1 h
  cases result : d.result with
  | error error =>
    rw [result] at h
    cases h
  | ok read =>
    rw [result] at h
    rw [(pure_ok_iff.1 h).1]

/-- Work on one file: what it holds is decoded and reported. -/
def reportOne (decode : Bytes → Decoded α) (report : α → String) (files : Files) (format : InputFormat)
    (name : String) : Work String := do
  let data ← input files format name
  return report (← ofDecoded (decode data))

theorem reportOne_ok {decode : Bytes → Decoded α} {report : α → String} {files : Files}
    {format : InputFormat} {name text : String} {notes after : List Note}
    (h : reportOne decode report files format name notes = .ok text after) :
    ∃ contents bytes value, files name = .ok contents ∧ format.Holds contents bytes ∧
      (decode bytes).result = .ok value ∧ text = report value := by
  obtain ⟨bytes, _, read, h⟩ := bind_ok_iff.1 h
  obtain ⟨value, _, decoded, h⟩ := bind_ok_iff.1 h
  obtain ⟨contents, found, holds⟩ := input_ok read
  exact ⟨contents, bytes, value, found, holds, ofDecoded_ok decoded, (pure_ok_iff.1 h).1.symm⟩

end Work

theorem Invocation.entry_ok {files : Files} {format : InputFormat} {trailing : Trailing}
    {leafFile extraDataFile text : String} {notes after : List Note}
    (h : (entry format trailing leafFile extraDataFile).perform files notes = .ok text after) :
    ∃ leafContents leafInput extraContents extraData e, files leafFile = .ok leafContents ∧
      format.Holds leafContents leafInput ∧ files extraDataFile = .ok extraContents ∧
      format.Holds extraContents extraData ∧ (decodeEntry trailing leafInput extraData).result = .ok e ∧
      text = e.report := by
  obtain ⟨leafInput, _, leafRead, h⟩ := Work.bind_ok_iff.1 h
  obtain ⟨extraData, _, extraRead, h⟩ := Work.bind_ok_iff.1 h
  obtain ⟨e, _, decoded, h⟩ := Work.bind_ok_iff.1 h
  obtain ⟨leafContents, leafFound, leafHolds⟩ := Work.input_ok leafRead
  obtain ⟨extraContents, extraFound, extraHolds⟩ := Work.input_ok extraRead
  exact ⟨leafContents, leafInput, extraContents, extraData, e, leafFound, leafHolds, extraFound, extraHolds,
    Work.ofDecoded_ok decoded, (Work.pure_ok_iff.1 h).1.symm⟩

/-! ### Runs -/

/-- A run of the program, and all that it depends on. -/
structure Run where
  environment : Environment
  files : Files
  /-- The command line, with the program's name in front. -/
  words : List String

namespace Run

def outcome (r : Run) : Outcome := run r.environment r.files r.words

/-- The words but for `--verbose`, which may stand anywhere. -/
def plainWords (r : Run) : List String := r.words.filter (· ≠ "--verbose")

/-- What follows the program's name and the command. -/
def arguments (r : Run) : List String := r.plainWords.drop 2

def format (r : Run) : InputFormat := lastFormat .binary r.arguments

/-- A file that is there and holds these bytes. -/
def FileHolds (r : Run) (name : String) (bytes : Bytes) : Prop :=
  ∃ contents, r.files name = .ok contents ∧ r.format.Holds contents bytes

/-- What the files hold, in the order in which they are named. -/
def Holds (r : Run) (records : List Bytes) : Prop := List.Forall₂ r.FileHolds (fileNames r.arguments) records

/-- The run is one of this command, it succeeds, and it would not have if there had been trailing bytes. -/
structure Decodes (r : Run) (command : String) : Prop where
  command : r.plainWords[1]? = some command
  refused : "--allow-trailing" ∉ r.arguments
  refused_otherwise : ∀ value ∈ r.environment.allowTrailing, value ∉ ["1", "true", "yes"]
  succeeds : r.outcome.exitCode = 0

variable {r : Run} {command : String}

theorem Decodes.plainWords_eq (h : r.Decodes command) :
    ∃ program, r.plainWords = program :: command :: r.arguments := by
  obtain ⟨inside, second⟩ := List.getElem?_eq_some_iff.1 h.command
  refine ⟨r.plainWords[0], ?_⟩
  rw [arguments, ← second, List.getElem_cons_drop, List.getElem_cons_drop, List.drop_zero]

theorem Decodes.trailing (h : r.Decodes command) : r.environment.trailing = .refused := by
  cases trailing : r.environment.trailing with
  | refused => rfl
  | allowed =>
    obtain ⟨value, given, accepted⟩ := Environment.trailing_eq_allowed_iff.1 trailing
    exact absurd accepted (h.refused_otherwise value given)

/-- What succeeds is an invocation, and its text is printed. -/
theorem Decodes.performed (h : r.Decodes command) : ∃ program i text notes,
    Request.ofWords .refused (program :: command :: r.arguments) = .invocation (.ok i) ∧
      i.perform r.files [] = .ok text notes ∧ r.outcome.stdout = text ++ "\n" := by
  obtain ⟨program, plain⟩ := h.plainWords_eq
  have request : request r.environment r.words = .ofWords .refused (program :: command :: r.arguments) := by
    rw [← plain, ← h.trailing]
    rfl
  obtain ⟨text, printed, output⟩ := (run_prints r.environment r.files r.words).of_success h.succeeds
  rw [request] at printed
  obtain ⟨i, notes, asked, performed⟩ := Request.printed_ok_iff.1 printed
  exact ⟨program, i, text, notes, asked, performed, output⟩

/-- What the arguments of a record command come to. -/
theorem Decodes.parsed (h : r.Decodes command) {p : RecordArguments}
    (parsed : RecordArguments.parse .refused r.arguments = .ok p) :
    p.format = r.format ∧ p.trailing = .refused ∧ p.files = fileNames r.arguments := by
  obtain ⟨-, format, trailing, files⟩ := RecordArguments.scan_ok_iff.1 parsed
  rw [if_neg h.refused] at trailing
  exact ⟨format, trailing, files⟩

theorem singleFile_ok {names : List String} {name : String} (h : Invocation.singleFile names = .ok name) :
    names = [name] := by
  unfold Invocation.singleFile at h
  split at h <;> cases h
  rfl

/-- What the files hold is read, and its report printed. -/
def Reports {α : Type} (r : Run) (report : α → String) (read : List Bytes → Option α) : Prop :=
  ∃ records value, r.Holds records ∧ read records = some value ∧ r.outcome.stdout = report value ++ "\n"

/-- A record alone. -/
def readOne {α : Type} (decode : Bytes → Decoded α) : List Bytes → Option α
  | [bytes] => (decode bytes).result.toOption
  | _ => none

/-- A leaf, and the chain that goes with it. -/
def readPair : List Bytes → Option LogEntry
  | [leafInput, extraData] => (decodeEntry .refused leafInput extraData).result.toOption
  | _ => none

/-- A command that asks for one file reports it. -/
theorem Decodes.reportsOne {α : Type} {decode : Trailing → Bytes → Decoded α} {report : α → String}
    {ask : InputFormat → Trailing → String → Invocation} (h : r.Decodes command)
    (asks : ∀ trailing program, Request.ofWords trailing (program :: command :: r.arguments) = .invocation do
      let p ← RecordArguments.parse trailing r.arguments
      return ask p.format p.trailing (← Invocation.singleFile p.files))
    (performs : ∀ format trailing file,
      (ask format trailing file).perform r.files = Work.reportOne (decode trailing) report r.files format file) :
    r.Reports report (readOne (decode .refused)) := by
  obtain ⟨program, i, text, notes, request, performed, printed⟩ := h.performed
  rw [asks] at request
  obtain ⟨p, parsed, asked⟩ := Except.bind_ok_iff.1 (Request.invocation.inj request)
  obtain ⟨file, single, asked⟩ := Except.bind_ok_iff.1 asked
  cases asked
  obtain ⟨format, trailing, files⟩ := h.parsed parsed
  rw [performs, format, trailing] at performed
  obtain ⟨contents, bytes, value, found, holds, decoded, rfl⟩ := Work.reportOne_ok performed
  refine ⟨[bytes], value, ?_, Except.toOption_eq_some_iff.2 decoded, printed⟩
  rw [Holds, ← files, singleFile_ok single]
  exact .cons ⟨contents, found, holds⟩ .nil

theorem Decodes.sct (h : r.Decodes "sct") : r.Reports Sct.report (readOne (decodeSct .refused)) :=
  h.reportsOne (fun _ _ => rfl) fun _ _ _ => rfl

theorem Decodes.leaf (h : r.Decodes "leaf") : r.Reports Leaf.report (readOne (decodeLeaf .refused)) :=
  h.reportsOne (fun _ _ => rfl) fun _ _ _ => rfl

theorem Decodes.entry (h : r.Decodes "entry") : r.Reports LogEntry.report readPair := by
  obtain ⟨program, i, text, notes, request, performed, printed⟩ := h.performed
  have asked : Invocation.ofEntry .refused r.arguments = .ok i := Request.invocation.inj request
  obtain ⟨p, parsed, asked⟩ := Except.bind_ok_iff.1 asked
  obtain ⟨format, trailing, files⟩ := h.parsed parsed
  split at asked
  next leafFile extraDataFile named =>
    cases asked
    rw [format, trailing] at performed
    obtain ⟨leafContents, leafInput, extraContents, extraData, e, leafFound, leafHolds, extraFound, extraHolds,
      decoded, rfl⟩ := Invocation.entry_ok performed
    refine ⟨[leafInput, extraData], e, ?_, Except.toOption_eq_some_iff.2 decoded, printed⟩
    rw [Holds, ← files, named]
    exact .cons ⟨leafContents, leafFound, leafHolds⟩ <| .cons ⟨extraContents, extraFound, extraHolds⟩ .nil
  next => cases asked

/-! ### Two runs -/

theorem FileHolds.unique {name : String} {bytes other : Bytes} (h : r.FileHolds name bytes)
    (h' : r.FileHolds name other) : bytes = other := by
  obtain ⟨contents, found, holds⟩ := h
  obtain ⟨contents', found', holds'⟩ := h'
  rw [found] at found'
  cases found'
  have decoded := InputFormat.decode_ok_iff_holds.2 holds
  rw [InputFormat.decode_ok_iff_holds.2 holds'] at decoded
  exact (Except.ok.inj decoded).symm

theorem Holds.unique {records others : List Bytes} (h : r.Holds records) (h' : r.Holds others) :
    records = others := by
  unfold Holds at h h'
  generalize fileNames r.arguments = names at h h'
  induction h generalizing others with
  | nil =>
    cases h'
    rfl
  | cons holds _ ih =>
    cases h' with
    | cons holds' rest' => rw [holds.unique holds', ih rest']

/-- What the outputs of two runs say of what their files hold. -/
def Identifies (a b : Run) : Prop :=
  (∃! records, a.Holds records) ∧ (∃! records, b.Holds records) ∧
    ∀ recordsA recordsB, a.Holds recordsA → b.Holds recordsB →
      (a.outcome.stdout = b.outcome.stdout ↔ recordsA = recordsB)

/-- Runs that report what they read, where this and its bytes determine each other. -/
theorem identifies_of_reports {α : Type} {report : α → String} (injective : Function.Injective report)
    (read : List Bytes → Option α)
    (unambiguous : ∀ records others value, read records = some value → read others = some value →
      records = others)
    {a b : Run} (ha : a.Reports report read) (hb : b.Reports report read) : Identifies a b := by
  obtain ⟨recordsA, valueA, holdsA, readA, printedA⟩ := ha
  obtain ⟨recordsB, valueB, holdsB, readB, printedB⟩ := hb
  refine ⟨⟨recordsA, holdsA, fun _ other => other.unique holdsA⟩,
    ⟨recordsB, holdsB, fun _ other => other.unique holdsB⟩, fun othersA othersB otherA otherB => ?_⟩
  rw [otherA.unique holdsA, otherB.unique holdsB, printedA, printedB, String.append_left_inj, injective.eq_iff]
  constructor
  · rintro rfl
    exact unambiguous recordsA recordsB valueA readA readB
  · rintro rfl
    rw [readA] at readB
    exact Option.some.inj readB

theorem readOne_unambiguous {α : Type} {decode : Bytes → Decoded α} (h : Unambiguous decode)
    (records others : List Bytes) (value : α) (read : readOne decode records = some value)
    (read' : readOne decode others = some value) : records = others := by
  unfold readOne at read read'
  split at read
  next bytes =>
    split at read'
    next bytes' =>
      rw [Except.toOption_eq_some_iff] at read read'
      rw [h bytes bytes' value read read']
    next => cases read'
  next => cases read

theorem readPair_unambiguous (records others : List Bytes) (e : LogEntry) (read : readPair records = some e)
    (read' : readPair others = some e) : records = others := by
  unfold readPair at read read'
  split at read
  next leafInput extraData =>
    split at read'
    next leafInput' extraData' =>
      obtain ⟨leaf, chain, -⟩ := decodeEntry_refused_iff.1 (Except.toOption_eq_some_iff.1 read)
      obtain ⟨leaf', chain', -⟩ := decodeEntry_refused_iff.1 (Except.toOption_eq_some_iff.1 read')
      rw [leaf] at leaf'
      rw [chain] at chain'
      cases leaf'
      cases chain'
      rfl
    next => cases read'
  next => cases read

end Run

/-- **Equal output, equal records**, in whichever way each run was given its own. -/
theorem outputs_identify_records {a b : Run} {command : String} (record : command ∈ ["sct", "leaf", "entry"])
    (ha : a.Decodes command) (hb : b.Decodes command) : Run.Identifies a b := by
  simp only [List.mem_cons, List.not_mem_nil, or_false] at record
  rcases record with rfl | rfl | rfl
  · exact Run.identifies_of_reports Sct.report_injective _
      (Run.readOne_unambiguous (unambiguous_of_codes encodeSct_of_settles)) ha.sct hb.sct
  · exact Run.identifies_of_reports Leaf.report_injective _
      (Run.readOne_unambiguous (unambiguous_of_codes encodeLeaf_of_settles)) ha.leaf hb.leaf
  · exact Run.identifies_of_reports LogEntry.report_injective _ Run.readPair_unambiguous ha.entry hb.entry

/-- A timestamp as it is, and in hexadecimal between blanks, with flags about: the outputs are the same. -/
theorem outputs_identify_records_hex :
    let bytes : Bytes := 0 :: List.replicate 32 7 ++ [0, 0, 0, 0, 0, 0, 0, 5, 0, 1, 9, 4, 3, 0, 2, 1, 0xAB]
    let text : Bytes := Text.Utf8.ofString
      " 00070707070707070707070707070707070707070707070707070707070707070700000000000000050001090403000201aB\n"
    let a : Run := ⟨{}, fun _ => .ok bytes, ["ctlog-decode", "sct", "sct.bin"]⟩
    let b : Run := ⟨{}, fun _ => .ok text, ["ctlog-decode", "--verbose", "sct", "sct.hex", "--hex"]⟩
    a.Decodes "sct" ∧ b.Decodes "sct" ∧ a.outcome.stdout = b.outcome.stdout := by
  intro bytes text a b
  have decodesA : a.Decodes "sct" := ⟨by decide +kernel, by decide +kernel, by decide +kernel, by decide +kernel⟩
  have decodesB : b.Decodes "sct" := ⟨by decide +kernel, by decide +kernel, by decide +kernel, by decide +kernel⟩
  have holdsA : a.Holds [bytes] := .cons ⟨bytes, rfl, InputFormat.decode_ok_iff_holds.1 (by decide +kernel)⟩ .nil
  have holdsB : b.Holds [bytes] := .cons ⟨text, rfl, InputFormat.decode_ok_iff_holds.1 (by decide +kernel)⟩ .nil
  obtain ⟨-, -, identified⟩ := outputs_identify_records (by decide) decodesA decodesB
  exact ⟨decodesA, decodesB, (identified _ _ holdsA holdsB).2 rfl⟩

end Transparency.Command
