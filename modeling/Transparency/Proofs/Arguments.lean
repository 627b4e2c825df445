import Transparency.Command.Run

/-! What the arguments of a record command come to.

Options count by themselves, files by their order: the arguments are accepted if every option among them is
known, and then the format is that of the last flag and the files are the arguments that are no options
(`scan_ok_iff`). Otherwise they are refused for the first option that is not known (`scan_error_iff`). -/
namespace Transparency.Command

/-- The format of the last flag, or the one before any. -/
def lastFormat (before : InputFormat) (arguments : List String) : InputFormat :=
  (arguments.filterMap InputFormat.ofFlag?).getLast?.getD before

/-- The arguments that are no options. -/
def fileNames (arguments : List String) : List String := arguments.filter fun argument => !isOption argument

/-- An argument that is refused nowhere. -/
def IsKnown (argument : String) : Prop :=
  isOption argument = true → argument = "--allow-trailing" ∨ (InputFormat.ofFlag? argument).isSome

theorem lastFormat_cons (before : InputFormat) (argument : String) (rest : List String) :
    lastFormat before (argument :: rest) = lastFormat ((InputFormat.ofFlag? argument).getD before) rest := by
  unfold lastFormat
  cases flag : InputFormat.ofFlag? argument with
  | none => rw [List.filterMap_cons_none flag]; rfl
  | some format =>
    rw [List.filterMap_cons_some flag, List.getLast?_cons]
    rfl

theorem isOption_of_ofFlag? {argument : String} {format : InputFormat}
    (flag : InputFormat.ofFlag? argument = some format) : isOption argument = true := by
  unfold InputFormat.ofFlag? at flag
  split at flag <;> first | rfl | cases flag

namespace RecordArguments

/-- A known argument is taken on, whatever comes after it. -/
theorem scan_of_known (r : RecordArguments) {argument : String} (known : IsKnown argument) (rest : List String) :
    r.scan (argument :: rest) = scan {
      format := (InputFormat.ofFlag? argument).getD r.format
      trailing := if argument = "--allow-trailing" then .allowed else r.trailing
      files := if isOption argument then r.files else argument :: r.files } rest := by
  by_cases allow : argument = "--allow-trailing"
  · subst allow
    rfl
  rw [scan, if_neg allow, if_neg allow]
  cases option : isOption argument with
  | false =>
    cases flag : InputFormat.ofFlag? argument with
    | none => rfl
    | some format => cases option.symm.trans (isOption_of_ofFlag? flag)
  | true =>
    obtain ⟨format, flag⟩ := Option.isSome_iff_exists.1 ((known option).resolve_left allow)
    rw [flag]
    rfl

theorem scan_of_not_known (r : RecordArguments) {argument : String} (unknown : ¬ IsKnown argument)
    (rest : List String) : r.scan (argument :: rest) = .error (.unknownOption argument) := by
  obtain ⟨option, others⟩ := Classical.not_imp.1 unknown
  obtain ⟨allow, flag⟩ := not_or.1 others
  rw [scan, if_neg allow, if_pos option, Option.not_isSome_iff_eq_none.1 flag]

/-- What is accepted, and what it comes to. -/
theorem scan_ok_iff {r p : RecordArguments} {arguments : List String} : r.scan arguments = .ok p ↔
    (∀ argument ∈ arguments, IsKnown argument) ∧ p.format = lastFormat r.format arguments ∧
      p.trailing = (if "--allow-trailing" ∈ arguments then .allowed else r.trailing) ∧
      p.files = r.files.reverse ++ fileNames arguments := by
  induction arguments generalizing r with
  | nil =>
    obtain ⟨format, trailing, files⟩ := p
    simp [scan, lastFormat, fileNames, eq_comm]
  | cons argument rest ih =>
    rw [List.forall_mem_cons]
    by_cases known : IsKnown argument
    · have trailing : (if "--allow-trailing" ∈ argument :: rest then .allowed else r.trailing) =
          if "--allow-trailing" ∈ rest then .allowed
          else if argument = "--allow-trailing" then .allowed else r.trailing := by
        grind
      have files : r.files.reverse ++ fileNames (argument :: rest) =
          (if isOption argument then r.files else argument :: r.files).reverse ++ fileNames rest := by
        cases option : isOption argument <;> simp [fileNames, option]
      rw [r.scan_of_known known, ih, lastFormat_cons, trailing, files, and_iff_right known]
    · rw [r.scan_of_not_known known]
      exact iff_of_false nofun fun parts => known parts.1.1

end RecordArguments

/-! ### The environment -/

theorem Environment.trailing_eq_allowed_iff {e : Environment} :
    e.trailing = .allowed ↔ ∃ value ∈ e.allowTrailing, value ∈ ["1", "true", "yes"] := by
  unfold trailing
  split
  next value => exact iff_of_true rfl ⟨_, value, by decide⟩
  next value => exact iff_of_true rfl ⟨_, value, by decide⟩
  next value => exact iff_of_true rfl ⟨_, value, by decide⟩
  next one two three =>
    refine iff_of_false nofun ?_
    rintro ⟨value, given, member⟩
    simp only [List.mem_cons, List.not_mem_nil, or_false] at member
    rcases member with rfl | rfl | rfl
    · exact one given
    · exact two given
    · exact three given

end Transparency.Command
