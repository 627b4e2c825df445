import Transparency.Proofs.Offering
import Transparency.Proofs.Session

/-! What decoders are made of.

All bytes come out of draws. A decoder is `Drawn` if it is put together from draws whose number of bytes is
known before, and that is every decoder but the one that reads to the end. What a draw has and sequencing
keeps need not be looked for in the decoders of records one by one. -/
namespace Transparency.Wire.Decoder
variable {α β : Type}

class inductive Drawn : {α : Type} → Decoder α → Prop
  | pure {α : Type} (value : α) : Drawn (pure value : Decoder α)
  | throw {α : Type} (error : DecodeError) : Drawn (throw error : Decoder α)
  | noteAt (n : Nat → Note) : Drawn (noteAt n)
  | upTo (n : Nat) : Drawn (upTo n)
  | bind {α β : Type} {d : Decoder α} {f : α → Decoder β} (first : Drawn d)
      (second : ∀ value, Drawn (f value)) : Drawn (d >>= f)
  /-- What is decoded on its own draws from elsewhere. -/
  | within {α : Type} (bytes : Bytes) (d : Decoder α) : Drawn (within bytes d)
  | ofChain {α : Type} (type : EntryType) {d : Decoder α} (drawn : Drawn d) : Drawn (ofChain type d)

/-! ### Chains and what is in memory -/

/-- What is decoded on its own leaves the source of the reader alone. -/
theorem within_cases (body : Bytes) (d : Decoder α) (r : Reader) :
    ∃ notes, (∃ value inner, d {Reader.ofBytes body with notes := r.notes} = .ok value inner ∧
        within body d r = .ok value {r with notes}) ∨
      ∃ error inner, d {Reader.ofBytes body with notes := r.notes} = .error error inner ∧
        within body d r = .error error {r with notes} := by
  cases run : d {Reader.ofBytes body with notes := r.notes} with
  | ok value inner => exact ⟨inner.notes, .inl ⟨value, inner, rfl, by simp only [within, run]⟩⟩
  | error error inner => exact ⟨inner.notes, .inr ⟨error, inner, rfl, by simp only [within, run]⟩⟩

theorem ofChain_of_io {type : EntryType} {d : Decoder α} {r s : Reader} {error : IoError}
    (run : d r = .error (.io error) s) :
    ofChain type d r = .error (.corrupt (.chainUnreadable type error.message)) s := by
  simp only [ofChain, run]

/-- What a chain makes of an outcome does not depend on the reader. -/
theorem ofChain_leaving (type : EntryType) (d : Decoder α) (out : Except DecodeError α) :
    ∃ out', ∀ r s, d r = leaving out s → ofChain type d r = leaving out' s := by
  by_cases unreadable : ∃ error, out = .error (.io error)
  · obtain ⟨error, rfl⟩ := unreadable
    exact ⟨.error (.corrupt (.chainUnreadable type error.message)), fun r s run => ofChain_of_io run⟩
  · refine ⟨out, fun r s run => ?_⟩
    rw [ofChain, run]
    split
    · rename_i error _ failed
      exact absurd ⟨error, (leaving_inj failed : out = .error (.io error) ∧ s = _).1⟩ unreadable
    · rfl

/-- Where there is an end or a failure, reading to the end is a draw that comes to it. -/
theorem toEnd_of_stops {r : Reader} (stops : r.source.Stops) : toEnd r = upTo (r.unread.length + 1) r := by
  obtain ⟨bytes, t, u, offers, inside, stops⟩ := stops.cases
  have short : bytes.length < r.unread.length + 1 := Nat.lt_succ_of_le inside
  rcases stops with ends | ⟨error, fails⟩
  · simp only [toEnd, upTo, offers.draw_ended short ends]
  · simp only [toEnd, upTo, offers.draw_failed short fails]

/-! ### Fields -/

attribute [instance] Drawn.pure Drawn.throw Drawn.noteAt Drawn.upTo Drawn.within

instance {d : Decoder α} {f : α → Decoder β} [Drawn d] [∀ value, Drawn (f value)] : Drawn (d >>= f) :=
  .bind inferInstance inferInstance

instance {d : Decoder α} {f : α → β} [Drawn d] : Drawn (f <$> d) :=
  inferInstanceAs (Drawn (d >>= fun value => pure (f value)))

instance (n : Note) : Drawn (note n) := inferInstanceAs (Drawn (noteAt _))

instance {c : Prop} [Decidable c] {d e : Decoder α} [Drawn d] [Drawn e] : Drawn (if c then d else e) := by
  split <;> infer_instance

instance {c : Prop} [Decidable c] {d : c → Decoder α} {e : ¬ c → Decoder α} [∀ h, Drawn (d h)]
    [∀ h, Drawn (e h)] : Drawn (if h : c then d h else e h) := by
  split <;> infer_instance

instance (n : Nat) : Drawn (block n) := by
  unfold block
  infer_instance

instance (n : Nat) : Drawn (bytes n) := by
  unfold bytes
  infer_instance

theorem Drawn.numberOn (width left : Nat) (value : UInt64) : Drawn (numberOn width left value) := by
  induction left generalizing value with
  | zero => exact .pure value
  | succ left ih =>
    refine .bind (.upTo 1) fun drawn => ?_
    cases drawn with
    | nil => exact .throw _
    | cons byte _ => exact ih _

instance (width : Nat) : Drawn (number width) := by
  unfold number
  split
  · infer_instance
  · exact .numberOn width width 0

instance (value? : Option α) (error : DecodeError) : Drawn (demand value? error) := by
  unfold demand
  split <;> infer_instance

instance (width : Nat) (of? : Nat → Option α) (refuse : UInt64 → DecodeError) :
    Drawn (tagged width of? refuse) := by
  unfold tagged
  infer_instance

instance (max : UInt64) : Drawn (field max) := by
  rw [field_eq]
  infer_instance

instance (type : EntryType) (d : Decoder α) [Drawn d] : Drawn (ofChain type d) := .ofChain type inferInstance

/-! ### Records -/

instance : Drawn version := inferInstanceAs (Drawn (tagged _ _ _))
instance : Drawn hashAlgorithm := inferInstanceAs (Drawn (tagged _ _ _))
instance : Drawn signatureAlgorithm := inferInstanceAs (Drawn (tagged _ _ _))

instance : Drawn digitallySigned := by
  unfold digitallySigned
  infer_instance

instance : Drawn sct := by
  unfold sct
  infer_instance

instance : Drawn entryType := inferInstanceAs (Drawn (tagged _ _ _))
instance : Drawn leafType := inferInstanceAs (Drawn (tagged _ _ _))

instance : Drawn precert := by
  unfold precert
  infer_instance

instance (type : EntryType) : Drawn (signedEntry type) := by
  cases type
  · exact inferInstanceAs (Drawn (_ <$> _))
  · exact inferInstanceAs (Drawn (_ <$> _))

instance : Drawn timestampedEntry := by
  unfold timestampedEntry
  infer_instance

instance : Drawn leaf := by
  unfold leaf
  infer_instance

/-! ### Chains -/

instance (type : EntryType) : Drawn (certificates type) := by
  unfold certificates
  infer_instance

instance (leafCertificate : Bytes) : Drawn (x509Chain leafCertificate) := by
  unfold x509Chain
  infer_instance

instance (precert : Precert) : Drawn (precertChain precert) := by
  unfold precertChain
  infer_instance

instance (entry : SignedEntry) : Drawn (chain entry) := by
  cases entry
  · exact inferInstanceAs (Drawn (_ <$> _))
  · exact inferInstanceAs (Drawn (_ <$> _))

/-- Only the end itself is not reached by draws of a known number. -/
theorem Drawn.of_step {step : Step} (known : step ≠ .toEnd) : Drawn step.decoder := by
  cases step with
  | toEnd => exact absurd rfl known
  | _ =>
    unfold Step.decoder
    infer_instance

end Transparency.Wire.Decoder
