import Transparency.Proofs.Measured

/-! A failure is not an end.

A source that fails behind some bytes is told from one that ends there, and from one that goes on: a decoder
reports the failure exactly where it would miss bytes at the end of the input, and otherwise comes to what
it comes to on the bytes alone, with the failure still ahead (`failure_is_not_end`). -/
namespace Transparency.Wire
open Decoder

variable {α : Type}

/-- The source hands out `data`, in whatever pieces and with interruptions, and then fails. -/
def Source.FailsAfter (s : Source) (data : Bytes) (error : IoError) : Prop :=
  ∃ t rest, s.Offers data t ∧ t.Fails error rest

/-- On a source that fails after some bytes, `d` reports the failure if the bytes alone are too few for it.
Otherwise it does not come to the failure. -/
def TellsFailure (d : Decoder α) : Prop :=
  ∀ (source : Source) (data : Bytes) (error : IoError), source.FailsAfter data error →
    ((∃ expected actual, d.outcome (.ofBytes data) = .error (.truncated expected actual)) →
      d.outcome {source} = .error (.io error)) ∧
    ((∀ expected actual, d.outcome (.ofBytes data) ≠ .error (.truncated expected actual)) →
      d.outcome {source} = d.outcome (.ofBytes data) ∧
        (d.after {source}).position = (d.after (.ofBytes data)).position ∧
        (d.after {source}).source.FailsAfter (d.after (.ofBytes data)).unread error)

theorem TellsFailure.of_measured (d : Decoder α) [Measured d] : TellsFailure d := by
  intro source data error fails
  obtain ⟨t, last, offers, fails⟩ := fails
  have start : ({source} : Reader).source.Offers data t := offers
  have same : (Reader.ofBytes data).source = .ofBytes data := rfl
  rcases Measured.run_ofBytes (d := d) same with
    ⟨out, code, rest, s', rfl, decides, run', left', position'⟩ | ⟨expected, actual, s', lacks, run', -⟩
  · obtain ⟨s, run, takes, left⟩ := decides.run start
    have unread : s'.unread = rest := by rw [Reader.unread, left', Source.unread_ofBytes]
    rw [outcome_of_leaving run, outcome_of_leaving run', after_of_leaving run, after_of_leaving run', unread]
    refine ⟨fun truncated => ?_, fun _ => ⟨rfl, takes.position.trans position'.symm, t, last, left, fails⟩⟩
    obtain ⟨expected, actual, rfl⟩ := truncated
    exact decides.judgement.elim
  · obtain ⟨s, run, -⟩ := lacks.misses.failed start fails
    have failed : d.outcome {source} = .error (.io error) := outcome_of_error run
    have short : d.outcome (.ofBytes data) = .error (.truncated expected actual) :=
      outcome_of_error run'
    exact ⟨fun _ => failed, fun other => absurd short (other expected actual)⟩

/-- **No failure is taken for the end of the input, and no end for a failure.** -/
theorem failure_is_not_end :
    TellsFailure Decoder.sct ∧ TellsFailure Decoder.digitallySigned ∧ TellsFailure Decoder.leaf ∧
      TellsFailure Decoder.timestampedEntry ∧ (∀ n, TellsFailure (Decoder.bytes n)) ∧
      (∀ n, TellsFailure (Decoder.block n)) ∧ (∀ width, TellsFailure (Decoder.number width)) ∧
      (∀ max, TellsFailure (Decoder.field max)) :=
  ⟨.of_measured _, .of_measured _, .of_measured _, .of_measured _, fun _ => .of_measured _,
    fun _ => .of_measured _, fun _ => .of_measured _, fun _ => .of_measured _⟩

/-- The same failure within a timestamp and behind one. -/
theorem failure_is_not_end_reset :
    let reset : IoError := ⟨.connectionReset, "connection reset"⟩
    let head : Bytes := 0 :: List.replicate 32 5
    let tail : Bytes := [0, 0, 0, 0, 0, 0, 0, 9, 0, 1, 6, 4, 3, 0, 1, 7]
    let within : Source := ⟨[.interrupt, .data head, .data [0, 0]], .failing reset⟩
    let behind : Source := ⟨[.data head, .interrupt, .data tail, .fail reset], .endOfInput⟩
    within.FailsAfter (head ++ [0, 0]) reset ∧ behind.FailsAfter (head ++ tail) reset ∧
      Decoder.sct.outcome {source := within} = .error (.io reset) ∧
      Decoder.sct.outcome {source := behind} =
        .ok ⟨.v1, ⟨⟨List.replicate 32 5, rfl⟩⟩, 9, [6], ⟨.sha256, .ecdsa, [7]⟩⟩ := by
  intro reset head tail within behind
  have fails : within.FailsAfter (head ++ [0, 0]) reset :=
    ⟨_, _, .interrupt (.piece head (by decide) (.piece [0, 0] (by decide) (.nothing _))), .always⟩
  have fails' : behind.FailsAfter (head ++ tail) reset :=
    ⟨_, _, .piece head (by decide) (.interrupt (.piece tail (by decide) (.nothing _))), .once⟩
  have short : Decoder.sct.outcome (.ofBytes (head ++ [0, 0])) = .error (.truncated 8 2) := by decide +kernel
  have whole : Decoder.sct.outcome (.ofBytes (head ++ tail)) =
      .ok ⟨.v1, ⟨⟨List.replicate 32 5, rfl⟩⟩, 9, [6], ⟨.sha256, .ecdsa, [7]⟩⟩ := by decide +kernel
  have passed := (failure_is_not_end.1 behind _ _ fails').2 fun _ _ truncated => nomatch whole.symm.trans truncated
  exact ⟨fails, fails', (failure_is_not_end.1 within _ _ fails).1 ⟨8, 2, short⟩, passed.1.trans whole⟩

end Transparency.Wire
