import Transparency.Wire.Decode

/-! What a decoder comes to, and the reader that it leaves. -/
namespace Transparency.Wire.Decoder
variable {α β : Type}

/-- The result of a decoder that comes to `out` and leaves its reader at `s`. -/
def leaving (out : Except DecodeError α) (s : Reader) : EStateM.Result DecodeError Reader α :=
  match out with
  | .ok value => .ok value s
  | .error error => .error error s

theorem leaving_inj {out out' : Except DecodeError α} {s s' : Reader}
    (h : leaving out s = leaving out' s') : out = out' ∧ s = s' := by
  cases out <;> cases out' <;> simp_all [leaving]

/-- What `d` comes to. -/
def outcome (d : Decoder α) (r : Reader) : Except DecodeError α :=
  match d r with
  | .ok value _ => .ok value
  | .error error _ => .error error

/-- The reader that `d` leaves. -/
def after (d : Decoder α) (r : Reader) : Reader :=
  match d r with
  | .ok _ s | .error _ s => s

theorem outcome_of_leaving {d : Decoder α} {out : Except DecodeError α} {r s : Reader}
    (run : d r = leaving out s) : d.outcome r = out := by
  cases out <;> simp only [outcome, run, leaving]

theorem after_of_leaving {d : Decoder α} {out : Except DecodeError α} {r s : Reader}
    (run : d r = leaving out s) : d.after r = s := by
  cases out <;> simp only [after, run, leaving]

theorem outcome_of_ok {d : Decoder α} {r s : Reader} {value : α} (run : d r = .ok value s) :
    d.outcome r = .ok value := by
  simp only [outcome, run]

theorem outcome_of_error {d : Decoder α} {r s : Reader} {error : DecodeError} (run : d r = .error error s) :
    d.outcome r = .error error := by
  simp only [outcome, run]

theorem after_of_ok {d : Decoder α} {r s : Reader} {value : α} (run : d r = .ok value s) :
    d.after r = s := by
  simp only [after, run]

theorem after_of_error {d : Decoder α} {r s : Reader} {error : DecodeError} (run : d r = .error error s) :
    d.after r = s := by
  simp only [after, run]

theorem run_of_outcome {d : Decoder α} {out : Except DecodeError α} {r : Reader} (h : d.outcome r = out) :
    d r = leaving out (d.after r) := by
  subst h
  cases run : d r <;> simp only [outcome, after, run, leaving]

theorem outcome_ok_iff {d : Decoder α} {r : Reader} {value : α} :
    d.outcome r = .ok value ↔ ∃ s, d r = .ok value s := by
  constructor
  · intro h
    exact ⟨_, run_of_outcome h⟩
  · intro parts
    obtain ⟨s, run⟩ := parts
    exact outcome_of_ok run

theorem bind_of_ok {d : Decoder α} {f : α → Decoder β} {r s : Reader} {value : α}
    (h : d r = .ok value s) : (d >>= f) r = f value s := by
  simp only [bind, EStateM.bind, h]

theorem bind_of_error {d : Decoder α} {f : α → Decoder β} {r s : Reader} {error : DecodeError}
    (h : d r = .error error s) : (d >>= f) r = .error error s := by
  simp only [bind, EStateM.bind, h]

theorem after_bind_of_ok {d : Decoder α} {f : α → Decoder β} {r s : Reader} {value : α}
    (h : d r = .ok value s) : (d >>= f).after r = (f value).after s := by
  simp only [after, bind_of_ok h]

theorem after_bind_of_error {d : Decoder α} {f : α → Decoder β} {r s : Reader} {error : DecodeError}
    (h : d r = .error error s) : (d >>= f).after r = s :=
  after_of_error (bind_of_error h)

theorem map_eq_ok_iff {out : Except DecodeError α} {f : α → β} {value : β} :
    out.map f = .ok value ↔ ∃ a, out = .ok a ∧ f a = value := by
  cases out <;> simp [Except.map]

theorem map_eq_error_iff {out : Except DecodeError α} {f : α → β} {error : DecodeError} :
    out.map f = .error error ↔ out = .error error := by
  cases out <;> simp [Except.map]

theorem outcome_map (d : Decoder α) (f : α → β) (r : Reader) :
    (f <$> d).outcome r = (d.outcome r).map f := by
  show (d >>= fun value => pure (f value)).outcome r = _
  cases run : d r with
  | ok value s =>
    rw [outcome_of_ok run]
    exact outcome_of_ok (bind_of_ok run)
  | error error s =>
    rw [outcome_of_error run]
    exact outcome_of_error (bind_of_error run)

theorem after_map (d : Decoder α) (f : α → β) (r : Reader) : (f <$> d).after r = d.after r := by
  show (d >>= fun value => pure (f value)).after r = _
  cases run : d r with
  | ok value s =>
    rw [after_of_ok run]
    exact after_of_ok (bind_of_ok run)
  | error error s =>
    rw [after_of_error run]
    exact after_of_error (bind_of_error run)

theorem ok_of_bind {d : Decoder α} {f : α → Decoder β} {r s : Reader} {value : β}
    (h : (d >>= f) r = .ok value s) : ∃ a m, d r = .ok a m ∧ f a m = .ok value s := by
  cases run : d r with
  | error error m =>
    rw [bind_of_error run] at h
    cases h
  | ok a m =>
    rw [bind_of_ok run] at h
    exact ⟨a, m, rfl, h⟩

theorem error_of_bind {d : Decoder α} {f : α → Decoder β} {r s : Reader} {error : DecodeError}
    (h : (d >>= f) r = .error error s) :
    d r = .error error s ∨ ∃ a m, d r = .ok a m ∧ f a m = .error error s := by
  cases run : d r with
  | error error' m =>
    rw [bind_of_error run] at h
    cases h
    exact .inl rfl
  | ok a m =>
    rw [bind_of_ok run] at h
    exact .inr ⟨a, m, rfl, h⟩

/-- A chain is of the type of its entry. -/
theorem chain_entryType {entry : SignedEntry} {r : Reader} {c : Chain}
    (followed : (chain entry).outcome r = .ok c) : entry.entryType = c.entryType := by
  obtain ⟨s, run⟩ := outcome_ok_iff.1 followed
  cases entry with
  | x509 certificate =>
    obtain ⟨_, _, -, last⟩ := ok_of_bind run
    cases last
    rfl
  | precert p =>
    obtain ⟨_, _, -, last⟩ := ok_of_bind run
    cases last
    rfl

end Transparency.Wire.Decoder

/-! ### Whole byte strings -/

namespace Transparency.Wire
variable {α : Type}

/-- What becomes of a value with `left` bytes behind it. -/
def Trailing.accept (trailing : Trailing) (left : Nat) (value : α) : Except DecodeError α :=
  if trailing = .allowed ∨ left = 0 then .ok value else .error (.trailingData left)

theorem Trailing.accept_eq_ok_iff {trailing : Trailing} {left : Nat} {value other : α} :
    trailing.accept left value = .ok other ↔ (trailing = .allowed ∨ left = 0) ∧ value = other := by
  unfold accept
  split
  · rename_i fine
    rw [Except.ok.injEq]
    exact (and_iff_right fine).symm
  · rename_i unfit
    exact ⟨nofun, fun parts => absurd parts.1 unfit⟩

theorem Trailing.accept_eq_error_iff {trailing : Trailing} {left : Nat} {value : α} {error : DecodeError} :
    trailing.accept left value = .error error ↔
      trailing = .refused ∧ left ≠ 0 ∧ error = .trailingData left := by
  cases trailing with
  | allowed => exact ⟨nofun, nofun⟩
  | refused =>
    by_cases none : left = 0
    · rw [accept, if_pos (.inr none)]
      exact ⟨nofun, fun parts => absurd none parts.2.1⟩
    · rw [accept, if_neg (by simpa using none), Except.error.injEq, eq_comm]
      exact ⟨fun same => ⟨rfl, none, same⟩, fun parts => parts.2.2⟩

theorem finish_result (trailing : Trailing) (r : Reader) (notes : List Note) (value : α) :
    (Decoded.finish trailing r notes value).result = trailing.accept r.unread.length value := by
  by_cases none : r.unread.length = 0
  · simp only [Decoded.finish, Trailing.accept, none, or_true, if_true]
  · cases trailing with
    | allowed => simp only [Decoded.finish, Trailing.accept, none, true_or, if_true, if_false]
    | refused => simp only [Decoded.finish, Trailing.accept, none, reduceCtorEq, or_self, if_false]

section
variable (d : Decoder α) (trailing : Trailing) {bytes : Bytes}

/-- Decoding a byte string fails as the decoder does. -/
theorem decode_of_error {error : DecodeError} (failed : d.outcome (.ofBytes bytes) = .error error) :
    (d.decode trailing bytes).result = .error error := by
  have run := Decoder.run_of_outcome failed
  simp only [Decoder.decode, run, Decoder.leaving]

theorem decode_of_ok {value : α} (decoded : d.outcome (.ofBytes bytes) = .ok value) :
    (d.decode trailing bytes).result = trailing.accept (d.after (.ofBytes bytes)).unread.length value := by
  have run := Decoder.run_of_outcome decoded
  simp only [Decoder.decode, run, Decoder.leaving, finish_result]

end

end Transparency.Wire

/-! ### Entries -/

namespace Transparency.Wire
variable {leaves chains : Reader} {l : Leaf} {error : DecodeError}

theorem readEntry_of_leaf_error (failed : Decoder.leaf.outcome leaves = .error error) :
    readEntry leaves chains = ⟨.error error, Decoder.leaf.after leaves, chains⟩ := by
  have run := Decoder.run_of_outcome failed
  simp only [readEntry, run, Decoder.leaving]

theorem readEntry_of_chain_error (decoded : Decoder.leaf.outcome leaves = .ok l)
    (failed : (Decoder.chain l.timestampedEntry.signedEntry).outcome chains = .error error) :
    readEntry leaves chains = ⟨.error error, Decoder.leaf.after leaves,
      (Decoder.chain l.timestampedEntry.signedEntry).after chains⟩ := by
  have run := Decoder.run_of_outcome decoded
  have run' := Decoder.run_of_outcome failed
  simp only [readEntry, run, run', Decoder.leaving]

/-- A leaf and the chain that it calls for always make an entry. -/
theorem readEntry_of_ok {c : Chain} (decoded : Decoder.leaf.outcome leaves = .ok l)
    (followed : (Decoder.chain l.timestampedEntry.signedEntry).outcome chains = .ok c) :
    readEntry leaves chains = ⟨.ok ⟨l, c, Decoder.chain_entryType followed⟩, Decoder.leaf.after leaves,
      (Decoder.chain l.timestampedEntry.signedEntry).after chains⟩ := by
  have run := Decoder.run_of_outcome decoded
  have run' := Decoder.run_of_outcome followed
  have pair : LogEntry.pair l c = .ok ⟨l, c, Decoder.chain_entryType followed⟩ :=
    dif_pos (Decoder.chain_entryType followed)
  simp only [readEntry, run, run', Decoder.leaving, pair]
  rfl

end Transparency.Wire
