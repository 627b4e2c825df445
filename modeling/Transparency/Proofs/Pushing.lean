import Transparency.Wire.Sink

/-! What gets into a sink that is offered bytes again and again.

A sink meets one offer with an interruption, with a failure, or by taking so many bytes from the front
(`Sink.offer`). `Pushes` goes on offering what is left until nothing is, unless an offer fails or nothing is taken
of it. That is what a push does, although it asks a steady sink only once (`pushes_push`). So the bytes that get into
a sink are the first of those that it was offered, and all of them unless the push stops before. -/
namespace Transparency.Wire

/-- How a sink meets an offer. -/
inductive Answer where
  | interrupted
  | took (count : Nat)
  | failed (error : IoError)
deriving DecidableEq, Repr

namespace Sink

/-- A sink that will answer as `s` does, with nothing in it. -/
def fresh (s : Sink) : Sink := {s with pieces := []}

/-- How much of `n` bytes a steady sink takes at once. -/
def most (s : Sink) (n : Nat) : Nat := min (min n (s.chunk.getD n)) (s.room.getD n)

/-- The answer to one offer, and how the sink goes on to answer. -/
def offer (s : Sink) (data : Bytes) : Answer × Sink :=
  match s.replies with
  | .interrupt :: rest => (.interrupted, {s with replies := rest})
  | .fail error :: rest => (.failed error, {s with replies := rest})
  | .accept most :: rest => (.took (min most data.length), {s with replies := rest})
  | [] =>
    let count := s.most data.length
    let left := {s with room := s.room.map (· - count)}
    match s.failure with
    | some error => if count = 0 then (.failed error, left) else (.took count, left)
    | none => (.took count, left)

end Sink

/-- `data` is offered to the sink, then what is left of it, and so on. -/
inductive Pushes : Sink → (data taken : Bytes) → Pushed → Sink → Prop where
  | all {s} : Pushes s [] [] .all s
  | interrupted {s m t data taken stop} : data ≠ [] → s.offer data = (.interrupted, m) →
      Pushes m data taken stop t → Pushes s data taken stop t
  | took {s m t data count taken stop} : s.offer data = (.took count, m) → 0 < count →
      Pushes m (data.drop count) taken stop t → Pushes s data (data.take count ++ taken) stop t
  | nothing {s t data} : data ≠ [] → s.offer data = (.took 0, t) → Pushes s data [] .nothing t
  | failed {s t data error} : data ≠ [] → s.offer data = (.failed error, t) →
      Pushes s data [] (.failed error) t

namespace Sink

/-! ### Steady sinks -/

/-- How a steady sink is stuck. -/
def stuck (s : Sink) : Pushed :=
  match s.failure with
  | some error => .failed error
  | none => .nothing

theorem pushSteady_eq (s : Sink) (data : Bytes) :
    s.pushSteady data = ⟨data.take (s.fit data.length), if s.fit data.length = data.length then .all else s.stuck,
      {s with room := s.room.map (· - s.fit data.length)}⟩ := by
  unfold pushSteady
  by_cases whole : s.fit data.length = data.length
  · simp only [whole, if_true, List.take_length]
  · simp only [whole, if_false]
    rfl

/-- A sink takes nothing of an offer only if it takes nothing at all. -/
theorem fit_of_most_zero {s : Sink} {n : Nat} (stuck : s.most n = 0) : s.fit n = 0 := by
  unfold most at stuck
  unfold fit
  split
  · rfl
  · rename_i open_
    cases chunk : s.chunk <;> cases room : s.room <;> simp_all

theorem most_le (s : Sink) (n : Nat) : s.most n ≤ n :=
  Nat.le_trans (Nat.min_le_left _ _) (Nat.min_le_left _ _)

/-- What a sink takes in all is what it takes of the first offer and of the rest. -/
theorem fit_eq_most_add {s : Sink} {n : Nat} (some : 0 < s.most n) :
    s.fit n = s.most n + {s with room := s.room.map (· - s.most n)}.fit (n - s.most n) := by
  have bound := s.most_le n
  have unlocked : s.chunk ≠ Option.some 0 := by
    intro locked
    simp [most, locked] at some
  unfold fit
  rw [if_neg unlocked, if_neg unlocked]
  cases room : s.room with
  | none =>
    show n = s.most n + (n - s.most n)
    omega
  | some left =>
    have fits : s.most n ≤ left := by
      unfold most
      rw [room]
      exact Nat.min_le_right _ _
    show min n left = s.most n + min (n - s.most n) (left - s.most n)
    omega

/-- A push to a steady sink is an offer, and a push of what is left of it. -/
theorem pushSteady_of_most {s : Sink} {data : Bytes} {count : Nat} (answer : s.most data.length = count)
    (some : 0 < count) :
    let p := {s with room := s.room.map (· - count)}.pushSteady (data.drop count)
    s.pushSteady data = {p with taken := data.take count ++ p.taken} := by
  intro p
  subst answer
  have fit := fit_eq_most_add some
  have bound := s.most_le data.length
  have left : (data.drop (s.most data.length)).length = data.length - s.most data.length := List.length_drop ..
  have rooms (more : Nat) : s.room.map (· - (s.most data.length + more)) =
      (s.room.map (· - s.most data.length)).map (· - more) := by
    rw [Option.map_map]
    congr 1
    funext room
    exact Nat.sub_add_eq ..
  simp only [p, pushSteady_eq, left, fit, List.take_add, rooms]
  congr 1
  refine ite_congr (propext ?_) (fun _ => rfl) (fun _ => rfl)
  omega

/-- How a steady sink answers. -/
theorem offer_of_steady {s : Sink} (steady : s.replies = []) (data : Bytes) :
    s.offer data = (if s.most data.length = 0 then
        match s.stuck with
        | .failed error => .failed error
        | _ => .took 0
      else .took (s.most data.length), {s with room := s.room.map (· - s.most data.length)}) := by
  unfold offer stuck
  rw [steady]
  cases s.failure with
  | none => by_cases none : s.most data.length = 0 <;> simp [none]
  | some error => by_cases none : s.most data.length = 0 <;> simp [none]

theorem pushes_pushSteady (s : Sink) (steady : s.replies = []) (data : Bytes) :
    Pushes s data (s.pushSteady data).taken (s.pushSteady data).stop (s.pushSteady data).sink := by
  induction size : data.length using Nat.strongRecOn generalizing s data with
  | ind n ih =>
    subst size
    have answer := offer_of_steady steady data
    rw [pushSteady_eq]
    by_cases empty : data = []
    · subst empty
      have none : s.fit 0 = 0 := fit_of_most_zero (Nat.le_zero.1 (s.most_le 0))
      have same : {s with room := s.room.map (· - 0)} = s := by cases s; simp
      rw [List.length_nil, none, same]
      exact .all
    · have some : data.length ≠ 0 := mt List.length_eq_zero_iff.1 empty
      by_cases locked : s.most data.length = 0
      · have none := fit_of_most_zero locked
        rw [if_pos locked, locked] at answer
        rw [none, if_neg (Ne.symm some)]
        unfold stuck at answer ⊢
        cases failure : s.failure with
        | none =>
          rw [failure] at answer
          exact .nothing empty answer
        | some error =>
          rw [failure] at answer
          exact .failed empty answer
      · rw [if_neg locked] at answer
        have positive := Nat.pos_of_ne_zero locked
        have bound := s.most_le data.length
        have rest := ih (data.drop (s.most data.length)).length (by rw [List.length_drop]; omega)
          {s with room := s.room.map (· - s.most data.length)} steady (data.drop (s.most data.length)) rfl
        rw [← pushSteady_eq, pushSteady_of_most rfl positive]
        exact .took answer positive rest

/-! ### Any sink -/

/-- What is in a sink has no part in how it answers. -/
theorem fresh_pushSteady (s : Sink) (data : Bytes) :
    s.fresh.pushSteady data = {s.pushSteady data with sink := (s.pushSteady data).sink.fresh} := by
  rw [pushSteady_eq, pushSteady_eq]
  rfl

/-- `replies` are the answers that are left, and `taken` is what got in before. -/
theorem pushes_pushOn (s : Sink) (taken : List Bytes) (data : Bytes) (replies : List Reply) :
    ∃ more, (s.pushOn taken data replies).taken = taken.reverse.flatten ++ more ∧
      Pushes {s.fresh with replies := replies} data more (s.pushOn taken data replies).stop
        (s.pushOn taken data replies).sink.fresh := by
  induction replies generalizing taken data with
  | nil =>
    have pushes := pushes_pushSteady {s with replies := []}.fresh rfl data
    rw [fresh_pushSteady] at pushes
    exact ⟨_, rfl, pushes⟩
  | cons reply rest ih =>
    cases data with
    | nil => exact ⟨[], (List.append_nil _).symm, .all⟩
    | cons byte data =>
      have some : byte :: data ≠ [] := List.cons_ne_nil byte data
      cases reply with
      | interrupt =>
        obtain ⟨more, taken_eq, pushes⟩ := ih taken (byte :: data)
        exact ⟨more, taken_eq, .interrupted some rfl pushes⟩
      | fail error => exact ⟨[], (List.append_nil _).symm, .failed some rfl⟩
      | accept most =>
        have answer : {s.fresh with replies := .accept most :: rest}.offer (byte :: data) =
            (.took (min most (byte :: data).length), {s.fresh with replies := rest}) := rfl
        cases most with
        | zero =>
          rw [Nat.zero_min] at answer
          exact ⟨[], (List.append_nil _).symm, .nothing some answer⟩
        | succ most =>
          obtain ⟨count, count_eq⟩ : ∃ n, min (most + 1) (byte :: data).length = n := ⟨_, rfl⟩
          have step : s.pushOn taken (byte :: data) (.accept (most + 1) :: rest) =
              s.pushOn ((byte :: data).take count :: taken) ((byte :: data).drop count) rest := by
            rw [← count_eq, ← List.take_eq_take_min, ← List.drop_eq_drop_min]
            rfl
          have positive : 0 < count := by
            rw [List.length_cons] at count_eq
            omega
          obtain ⟨more, taken_eq, pushes⟩ := ih ((byte :: data).take count :: taken) ((byte :: data).drop count)
          rw [List.reverse_cons, List.flatten_append, List.flatten_singleton, List.append_assoc] at taken_eq
          rw [count_eq] at answer
          rw [step]
          exact ⟨(byte :: data).take count ++ more, taken_eq, .took answer positive pushes⟩

/-- What a push does is to offer what is left again and again. -/
theorem pushes_push (s : Sink) (data : Bytes) :
    Pushes s.fresh data (s.push data).taken (s.push data).stop (s.push data).sink.fresh := by
  obtain ⟨more, taken_eq, pushes⟩ := s.pushes_pushOn [] data s.replies
  rw [List.reverse_nil, List.flatten_nil, List.nil_append] at taken_eq
  rw [← taken_eq] at pushes
  exact pushes

end Sink

/-! ### What gets in -/

theorem Pushes.prefix_and_all_iff {s t : Sink} {data taken : Bytes} {stop : Pushed} (h : Pushes s data taken stop t) :
    taken <+: data ∧ (stop = .all ↔ taken = data) := by
  induction h with
  | all => exact ⟨List.prefix_refl _, iff_of_true rfl rfl⟩
  | interrupted _ _ _ ih => exact ih
  | @took s m t data count taken stop _ _ _ ih =>
    obtain ⟨start, all_iff⟩ := ih
    have split := List.take_append_drop count data
    constructor
    · rw [← List.prefix_append_right_inj (data.take count), split] at start
      exact start
    · rw [all_iff, ← List.append_right_inj (data.take count), split]
  | nothing some => exact ⟨List.nil_prefix, iff_of_false nofun (Ne.symm some)⟩
  | failed some => exact ⟨List.nil_prefix, iff_of_false nofun (Ne.symm some)⟩

end Transparency.Wire
