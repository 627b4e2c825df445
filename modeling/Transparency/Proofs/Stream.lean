import Transparency.Proofs.Grammar
import Transparency.Proofs.Memory

/-! Records behind one another.

A writer takes down records of any kinds one after the other; a reader that is told the kinds takes them
back. `stream_reads_back` says that the reader then finds the very same records, stands after each of
them where the writer stood, and leaves what was added behind the last. -/
namespace Transparency.Wire

/-- A record that can stand among others, since its bytes say where it ends. -/
inductive Record where
  | sct (s : Sct)
  | digitallySigned (s : DigitallySigned)
  | leaf (l : Leaf)
  | timestampedEntry (e : TimestampedEntry)

inductive RecordKind where
  | sct
  | digitallySigned
  | leaf
  | timestampedEntry

namespace Record

def kind : Record → RecordKind
  | .sct _ => .sct
  | .digitallySigned _ => .digitallySigned
  | .leaf _ => .leaf
  | .timestampedEntry _ => .timestampedEntry

def layout : Record → Bytes
  | .sct s => s.layout
  | .digitallySigned s => s.layout
  | .leaf l => l.layout
  | .timestampedEntry e => e.layout

def Fits : Record → Prop
  | .sct s => s.Fits
  | .digitallySigned s => s.Fits
  | .leaf l => l.Fits
  | .timestampedEntry e => e.Fits

instance : DecidablePred Fits
  | .sct s => inferInstanceAs (Decidable s.Fits)
  | .digitallySigned s => inferInstanceAs (Decidable s.Fits)
  | .leaf l => inferInstanceAs (Decidable l.Fits)
  | .timestampedEntry e => inferInstanceAs (Decidable e.Fits)

end Record

/-! ### Writing -/

namespace Encoder

def record : Record → Encoder Unit
  | .sct s => sct s
  | .digitallySigned s => digitallySigned s
  | .leaf l => leaf l
  | .timestampedEntry e => timestampedEntry e

/-- Writes the records in order, and says where the writer stood after each. -/
def stream : List Record → Encoder (List Nat)
  | [] => return []
  | first :: rest => do
    record first
    let mark := (← get).position
    let marks ← stream rest
    return mark :: marks

theorem emits_record {r : Record} (h : r.Fits) : Emits (record r) r.layout := by
  cases r with
  | sct s => exact emits_sct h
  | digitallySigned s => exact emits_digitallySigned h
  | leaf l => exact emits_leaf h
  | timestampedEntry e => exact emits_timestampedEntry h

end Encoder

/-- Where records end that begin at `start`. -/
def marksFrom (start : Nat) : List Record → List Nat
  | [] => []
  | first :: rest => (start + first.layout.length) :: marksFrom (start + first.layout.length) rest

theorem length_marksFrom (start : Nat) (records : List Record) :
    (marksFrom start records).length = records.length := by
  induction records generalizing start with
  | nil => rfl
  | cons first rest ih => rw [marksFrom, List.length_cons, List.length_cons, ih]

theorem Encoder.stream_emits {records : List Record} (fits : ∀ r ∈ records, r.Fits) (w : Writer)
    (h : w.InMemory) : ∃ w', stream records w = .ok (marksFrom w.position records) w' ∧
      w.Gains (records.flatMap Record.layout) w' := by
  induction records generalizing w with
  | nil => exact ⟨w, rfl, h, (List.append_nil _).symm, rfl⟩
  | cons first rest ih =>
    obtain ⟨fitsFirst, fitsRest⟩ := List.forall_mem_cons.1 fits
    obtain ⟨v, run, gains⟩ := emits_record fitsFirst w h
    obtain ⟨w', run', gains'⟩ := ih fitsRest v gains.inMemory
    have here : (get : Encoder Writer) v = .ok v v := rfl
    refine ⟨w', ?_, gains.trans gains'⟩
    rw [gains.position] at run'
    simp only [stream, marksFrom, bind, EStateM.bind, run, here, run', gains.position]
    rfl

/-! ### Reading back -/

namespace Decoder

def record : RecordKind → Decoder Record
  | .sct => .sct <$> sct
  | .digitallySigned => .digitallySigned <$> digitallySigned
  | .leaf => .leaf <$> leaf
  | .timestampedEntry => .timestampedEntry <$> timestampedEntry

/-- Reads records of these kinds in order, and says where the reader stood after each. -/
def stream : List RecordKind → Decoder (List (Record × Nat))
  | [] => return []
  | kind :: rest => do
    let first ← record kind
    let mark := (← get).position
    let records ← stream rest
    return (first, mark) :: records

theorem settles_record {r : Record} (h : r.Fits) : Settles (record r.kind) (.ok r) r.layout := by
  cases r with
  | sct s => exact settles_map_iff.2 ⟨s, rfl, settles_sct_iff.2 ⟨h, rfl⟩⟩
  | digitallySigned s => exact settles_map_iff.2 ⟨s, rfl, settles_digitallySigned_iff.2 ⟨h, rfl⟩⟩
  | leaf l => exact settles_map_iff.2 ⟨l, rfl, settles_leaf_iff.2 ⟨h, rfl⟩⟩
  | timestampedEntry e =>
    exact settles_map_iff.2 ⟨e, rfl, settles_timestampedEntry_iff.2 ⟨h, rfl⟩⟩

theorem stream_settles {records : List Record} (fits : ∀ r ∈ records, r.Fits) (r : Reader)
    (rest : Bytes) (h : r.source = .ofBytes (records.flatMap Record.layout ++ rest)) :
    ∃ s, stream (records.map Record.kind) r = .ok (records.zip (marksFrom r.position records)) s ∧
      r.Passes (records.flatMap Record.layout) rest s := by
  induction records generalizing r with
  | nil => exact ⟨r, rfl, h, rfl, rfl⟩
  | cons first others ih =>
    rw [List.flatMap_cons, List.append_assoc] at h
    obtain ⟨fitsFirst, fitsRest⟩ := List.forall_mem_cons.1 fits
    obtain ⟨s, run, passes⟩ := settles_record fitsFirst r _ h
    obtain ⟨t, run', passes'⟩ := ih fitsRest s passes.source
    have here : (get : Decoder Reader) s = .ok s s := rfl
    refine ⟨t, ?_, passes.trans passes'⟩
    rw [List.map_cons, stream, bind_of_ok run, bind_of_ok here, bind_of_ok run', passes.position]
    rfl

end Decoder

/-- **Records written one after the other are read back one after the other**: the same records, each
ending where the writer had ended it, and behind the last one what followed. -/
theorem stream_reads_back (records : List Record) (fits : ∀ r ∈ records, r.Fits) :
    ∃ marks w, Encoder.stream records {} = .ok marks w ∧ marks.length = records.length ∧
      ∀ rest, ∃ r, Decoder.stream (records.map Record.kind) (.ofBytes (w.sink.output ++ rest)) =
          .ok (records.zip marks) r ∧ r.unread = rest ∧ r.position = w.position := by
  obtain ⟨w, run, gains⟩ := Encoder.stream_emits fits {} Writer.inMemory_default
  have output : w.sink.output = records.flatMap Record.layout := gains.output
  refine ⟨_, w, run, length_marksFrom _ records, fun rest => ?_⟩
  obtain ⟨r, run', passes⟩ := Decoder.stream_settles fits (.ofBytes (w.sink.output ++ rest)) rest
    (by rw [output]; rfl)
  refine ⟨r, run', ?_, passes.position.trans gains.position.symm⟩
  rw [Reader.unread, passes.source, Source.unread_ofBytes]

/-- A record of each kind, an empty field at the end of the first. -/
def mixedRecords : List Record :=
  [.leaf ⟨.v1, ⟨7, .x509 []⟩⟩, .digitallySigned ⟨.sha256, .ecdsa, [1, 2]⟩,
    .sct ⟨.v1, ⟨⟨List.replicate 32 5, rfl⟩⟩, 9, [6], ⟨.sha512, .rsa, [4]⟩⟩,
    .timestampedEntry ⟨8, .precert ⟨⟨List.replicate 32 3, rfl⟩, [0]⟩⟩]

theorem mixedRecords_read_back : (∀ r ∈ mixedRecords, r.Fits) ∧
    ∃ marks w, Encoder.stream mixedRecords {} = .ok marks w ∧ marks.length = 4 ∧
      ∀ rest, ∃ r, Decoder.stream [.leaf, .digitallySigned, .sct, .timestampedEntry]
          (.ofBytes (w.sink.output ++ rest)) = .ok (mixedRecords.zip marks) r ∧ r.unread = rest ∧
        r.position = w.position :=
  have fits : ∀ r ∈ mixedRecords, r.Fits := by decide
  ⟨fits, stream_reads_back mixedRecords fits⟩

end Transparency.Wire
