import Transparency.Command.Run
import Transparency.Proofs.Base64

/-! What a run shows.

A known command is carried out: the run shows the text that comes of it on its output, or says on its error
output why there is none (`run_shows`). The output and the exit code alone do not tell why: whatever the words are, a
run prints the text of what they ask for, or nothing where there is none (`run_prints`). -/
namespace Transparency.Command

/-! ### Requests -/

/-- What some work comes to, without its notes. -/
def Work.result {α : Type} (w : Work α) : Except Error α :=
  match w [] with
  | .ok value _ => .ok value
  | .error error _ => .error error

theorem Work.result_ok_iff {α : Type} {w : Work α} {value : α} :
    w.result = .ok value ↔ ∃ notes, w [] = .ok value notes := by
  unfold result
  cases w [] <;> simp

/-- What a request prints, or the code with which it fails. -/
def Request.printed (files : Files) : Request → Except UInt8 String
  | .nameless => .error 101
  | .nothing _ | .unknown _ _ => .error 1
  | .invocation parsed => (parsed >>= fun i => (i.perform files).result).mapError fun _ => 1

theorem Request.printed_ok_iff {files : Files} {q : Request} {text : String} :
    q.printed files = .ok text ↔ ∃ i notes, q = .invocation (.ok i) ∧ i.perform files [] = .ok text notes := by
  cases q with
  | invocation parsed =>
    simp only [printed, Except.mapError_ok_iff, Except.bind_ok_iff, Work.result_ok_iff, invocation.injEq,
      exists_and_left]
  | nameless | nothing program | unknown program command => exact iff_of_false nofun nofun

/-! ### Runs -/

/-- A run shows a text on its output and succeeds, or says on its error output why it fails. -/
def Outcome.Shows (o : Outcome) : Except Error String → Prop
  | .ok text => o.exitCode = 0 ∧ o.stdout = text ++ "\n" ∧ o.stderr = ""
  | .error error => o.exitCode = 1 ∧ o.stdout = "" ∧ o.stderr = failure error

/-- A run of a known command shows what the command comes to. -/
theorem run_shows {environment : Environment} (files : Files) {words : List String}
    {parsed : Except Error Invocation} (asked : request environment words = .invocation parsed) :
    (run environment files words).Shows (parsed >>= fun i => (i.perform files).result) := by
  unfold run
  rw [asked]
  cases parsed with
  | error error => exact ⟨rfl, rfl, rfl⟩
  | ok i =>
    show Outcome.Shows _ (i.perform files).result
    unfold Work.result
    cases performed : i.perform files [] with
    | ok text notes | error error notes =>
      simp only [performed]
      exact ⟨rfl, rfl, rfl⟩

/-- A run prints a text and succeeds, or prints nothing and fails with a code. -/
def Outcome.Prints (o : Outcome) : Except UInt8 String → Prop
  | .ok text => o.exitCode = 0 ∧ o.stdout = text ++ "\n"
  | .error code => o.exitCode = code ∧ code ≠ 0 ∧ o.stdout = ""

theorem Outcome.Shows.prints {o : Outcome} {shown : Except Error String} (h : o.Shows shown) :
    o.Prints (shown.mapError fun _ => 1) := by
  cases shown with
  | ok text =>
    obtain ⟨exitCode, stdout, -⟩ := h
    exact ⟨exitCode, stdout⟩
  | error error =>
    obtain ⟨exitCode, stdout, -⟩ := h
    exact ⟨exitCode, (by decide : (1 : UInt8) ≠ 0), stdout⟩

theorem run_prints (environment : Environment) (files : Files) (words : List String) :
    (run environment files words).Prints ((request environment words).printed files) := by
  cases asked : request environment words with
  | invocation parsed => exact (run_shows files asked).prints
  | nameless | nothing program | unknown program command =>
    unfold run
    rw [asked]
    exact ⟨rfl, by decide, rfl⟩

namespace Outcome.Prints
variable {o o' : Outcome} {printed : Except UInt8 String}

theorem unique (h : o.Prints printed) (h' : o'.Prints printed) :
    o'.stdout = o.stdout ∧ o'.exitCode = o.exitCode := by
  cases printed with
  | ok text =>
    obtain ⟨exitCode, stdout⟩ := h
    obtain ⟨exitCode', stdout'⟩ := h'
    exact ⟨stdout'.trans stdout.symm, exitCode'.trans exitCode.symm⟩
  | error code =>
    obtain ⟨exitCode, -, stdout⟩ := h
    obtain ⟨exitCode', -, stdout'⟩ := h'
    exact ⟨stdout'.trans stdout.symm, exitCode'.trans exitCode.symm⟩

theorem of_success (h : o.Prints printed) (succeeds : o.exitCode = 0) :
    ∃ text, printed = .ok text ∧ o.stdout = text ++ "\n" := by
  cases printed with
  | ok text => exact ⟨text, rfl, h.2⟩
  | error code =>
    obtain ⟨exitCode, fails, -⟩ := h
    exact absurd (exitCode.symm.trans succeeds) fails

end Outcome.Prints

end Transparency.Command
