import Mathlib.Data.List.Basic
import Mathlib.Logic.Relation
import Transparency.Proofs.Arguments
import Transparency.Proofs.Showing

/-! Command lines that say the same in other words.

The arguments of a record command come to what they are and not to where they stand: only files and flags of formats
have an order among themselves. So a command line may be rephrased, its options moved about, one said again, `--verbose`
put in anywhere, and a run prints and returns the same (`record_arguments_read`). -/
namespace Transparency.Command

def recordCommands : List String := ["sct", "leaf", "entry"]

theorem fileNames_eq (arguments : List String) :
    fileNames arguments = arguments.filterMap (Option.guard fun argument => !isOption argument) := by
  rw [List.filterMap_eq_filter]
  rfl

theorem filterMap_plain {α : Type} {f : String → Option α} (nothing : f verboseFlag = none) (words : List String) :
    (words.filter (· ≠ verboseFlag)).filterMap f = words.filterMap f := by
  rw [List.filterMap_filter]
  apply List.filterMap_congr
  intro word _
  by_cases same : word = verboseFlag
  · rw [same, nothing]
    rfl
  · exact if_pos (decide_eq_true same)

/-- Arguments with the same files and the same formats, in the same order, and with the same options, however often each
and wherever. -/
structure ComeToSame (arguments others : List String) : Prop where
  files : fileNames others = fileNames arguments
  formats : others.filterMap InputFormat.ofFlag? = arguments.filterMap InputFormat.ofFlag?
  options : ∀ option, isOption option = true → (option ∈ others ↔ option ∈ arguments)

namespace ComeToSame
variable {arguments others : List String}

theorem known_iff (h : ComeToSame arguments others) :
    (∀ argument ∈ others, IsKnown argument) ↔ ∀ argument ∈ arguments, IsKnown argument := by
  constructor
  · intro fine argument member option
    exact fine argument ((h.options argument option).2 member) option
  · intro fine argument member option
    exact fine argument ((h.options argument option).1 member) option

/-- They are accepted alike. Where they are refused, it may be for different options. -/
theorem parse (h : ComeToSame arguments others) (trailing : Wire.Trailing) :
    (RecordArguments.parse trailing others).toOption = (RecordArguments.parse trailing arguments).toOption := by
  ext parsed
  have allow := h.options "--allow-trailing" rfl
  simp only [Except.toOption_eq_some_iff, RecordArguments.parse, RecordArguments.scan_ok_iff, h.known_iff, h.files,
    lastFormat, h.formats, allow]

/-- `--verbose` is no file and no format, so it may be left out wherever it is. -/
theorem plain (h : ComeToSame arguments others) :
    ComeToSame (arguments.filter (· ≠ verboseFlag)) (others.filter (· ≠ verboseFlag)) := by
  refine ⟨?_, ?_, fun option looks => ?_⟩
  · rw [fileNames_eq, fileNames_eq, filterMap_plain rfl, filterMap_plain rfl, ← fileNames_eq, ← fileNames_eq, h.files]
  · rw [filterMap_plain rfl, filterMap_plain rfl, h.formats]
  · rw [List.mem_filter, List.mem_filter, h.options option looks]

theorem of_perm (perm : others.Perm arguments) (files : fileNames others = fileNames arguments)
    (formats : others.filterMap InputFormat.ofFlag? = arguments.filterMap InputFormat.ofFlag?) :
    ComeToSame arguments others :=
  ⟨files, formats, fun _ _ => perm.mem_iff⟩

theorem of_repeated {before after : List String} (said : "--allow-trailing" ∈ before ++ after) :
    ComeToSame (before ++ after) (before ++ "--allow-trailing" :: after) := by
  have looks : isOption "--allow-trailing" = true := rfl
  have noFlag : InputFormat.ofFlag? "--allow-trailing" = none := rfl
  refine ⟨?_, ?_, fun option _ => ?_⟩
  · simp [fileNames, looks]
  · rw [List.filterMap_append, List.filterMap_cons_none noFlag, List.filterMap_append]
  · rw [List.perm_middle.mem_iff, List.mem_cons, or_iff_right_of_imp]
    rintro rfl
    exact said

end ComeToSame

/-! ### Requests -/

/-- What is printed does not tell why there is no invocation. -/
theorem Request.printed_congr (files : Files) {parsed others : Except Error Invocation}
    (same : others.toOption = parsed.toOption) :
    (invocation others).printed files = (invocation parsed).printed files := by
  cases parsed with
  | ok i => rw [Except.toOption_eq_some_iff.1 same]
  | error error =>
    cases others with
    | ok i => cases same
    | error other => rfl

/-- What is built on the arguments is the same. -/
theorem ComeToSame.bind {arguments others : List String} (h : ComeToSame arguments others) (trailing : Wire.Trailing)
    (ask : RecordArguments → Except Error Invocation) :
    (RecordArguments.parse trailing others >>= ask).toOption =
      (RecordArguments.parse trailing arguments >>= ask).toOption := by
  rw [Except.toOption_bind, h.parse, ← Except.toOption_bind]

theorem ComeToSame.printed {arguments others : List String} (h : ComeToSame arguments others)
    {command : String} (record : command ∈ recordCommands) (trailing : Wire.Trailing) (program : String)
    (files : Files) :
    (Request.ofWords trailing (program :: command :: others)).printed files =
      (Request.ofWords trailing (program :: command :: arguments)).printed files := by
  simp only [recordCommands, List.mem_cons, List.not_mem_nil, or_false] at record
  rcases record with rfl | rfl | rfl <;> exact Request.printed_congr files (h.bind trailing _)

/-! ### Rephrasing -/

/-- The words up to the command: the program's name, and `--verbose` about it. -/
def Leads (lead : List String) (program : String) : Prop := lead.filter (· ≠ verboseFlag) = [program]

/-- Another way to put a command line. What leads up to the command is left. -/
inductive Rephrases : List String → List String → Prop where
  /-- Options stand elsewhere. Files keep their order, and so do the flags of formats. -/
  | moved {lead arguments others : List String} {program command : String} : Leads lead program →
      command ∈ recordCommands → others.Perm arguments → fileNames others = fileNames arguments →
        others.filterMap InputFormat.ofFlag? = arguments.filterMap InputFormat.ofFlag? →
          Rephrases (lead ++ command :: arguments) (lead ++ command :: others)
  | repeated {lead before after : List String} {program command : String} : Leads lead program →
      command ∈ recordCommands → "--allow-trailing" ∈ before ++ after →
        Rephrases (lead ++ command :: (before ++ after)) (lead ++ command :: (before ++ "--allow-trailing" :: after))
  | verbose (before after : List String) : Rephrases (before ++ after) (before ++ verboseFlag :: after)

/-- The command is the second word that is left. -/
theorem Leads.request {lead arguments : List String} {program command : String} (leads : Leads lead program)
    (record : command ∈ recordCommands) (environment : Environment) :
    request environment (lead ++ command :: arguments) =
      .ofWords environment.trailing (program :: command :: arguments.filter (· ≠ verboseFlag)) := by
  have other : command ≠ verboseFlag := by
    rintro rfl
    exact absurd record (by decide)
  rw [Command.request, List.filter_append, leads, List.singleton_append,
    List.filter_cons_of_pos (by simpa using other)]

theorem ComeToSame.request {lead arguments others : List String} {program command : String}
    (h : ComeToSame arguments others) (leads : Leads lead program) (record : command ∈ recordCommands)
    (environment : Environment) (files : Files) :
    (request environment (lead ++ command :: others)).printed files =
      (Command.request environment (lead ++ command :: arguments)).printed files := by
  rw [leads.request record, leads.request record]
  exact h.plain.printed record environment.trailing program files

theorem Rephrases.printed {words others : List String} (h : Rephrases words others) (environment : Environment)
    (files : Files) : (request environment others).printed files = (request environment words).printed files := by
  cases h with
  | moved leads record perm names formats =>
    exact (ComeToSame.of_perm perm names formats).request leads record environment files
  | repeated leads record said => exact (ComeToSame.of_repeated said).request leads record environment files
  | verbose before after =>
    have same : (before ++ verboseFlag :: after).filter (· ≠ verboseFlag) =
        (before ++ after).filter (· ≠ verboseFlag) := by simp
    rw [request, same, ← request]

end Transparency.Command
