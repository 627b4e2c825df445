/-! The enumerations of the wire format: for each its tags and its names. -/
namespace Transparency

/-! ### Protocol version -/

inductive Version where
  | v1
deriving DecidableEq, Repr

def Version.tag : Version → Nat
  | .v1 => 0

def Version.ofTag? : Nat → Option Version
  | 0 => some .v1
  | _ => none

def Version.name : Version → String
  | .v1 => "v1"

def Version.ofName? : String → Option Version
  | "v1" => some .v1
  | _ => none

/-! ### Hash algorithm -/

inductive HashAlgorithm where
  | none
  | md5
  | sha1
  | sha224
  | sha256
  | sha384
  | sha512
deriving DecidableEq, Repr

def HashAlgorithm.tag : HashAlgorithm → Nat
  | .none => 0
  | .md5 => 1
  | .sha1 => 2
  | .sha224 => 3
  | .sha256 => 4
  | .sha384 => 5
  | .sha512 => 6

def HashAlgorithm.ofTag? : Nat → Option HashAlgorithm
  | 0 => some .none
  | 1 => some .md5
  | 2 => some .sha1
  | 3 => some .sha224
  | 4 => some .sha256
  | 5 => some .sha384
  | 6 => some .sha512
  | _ => Option.none

def HashAlgorithm.name : HashAlgorithm → String
  | .none => "none"
  | .md5 => "md5"
  | .sha1 => "sha1"
  | .sha224 => "sha224"
  | .sha256 => "sha256"
  | .sha384 => "sha384"
  | .sha512 => "sha512"

def HashAlgorithm.ofName? : String → Option HashAlgorithm
  | "none" => some .none
  | "md5" => some .md5
  | "sha1" => some .sha1
  | "sha224" => some .sha224
  | "sha256" => some .sha256
  | "sha384" => some .sha384
  | "sha512" => some .sha512
  | _ => Option.none

/-! ### Signature algorithm -/

inductive SignatureAlgorithm where
  | anonymous
  | rsa
  | dsa
  | ecdsa
deriving DecidableEq, Repr

def SignatureAlgorithm.tag : SignatureAlgorithm → Nat
  | .anonymous => 0
  | .rsa => 1
  | .dsa => 2
  | .ecdsa => 3

def SignatureAlgorithm.ofTag? : Nat → Option SignatureAlgorithm
  | 0 => some .anonymous
  | 1 => some .rsa
  | 2 => some .dsa
  | 3 => some .ecdsa
  | _ => none

def SignatureAlgorithm.name : SignatureAlgorithm → String
  | .anonymous => "anonymous"
  | .rsa => "rsa"
  | .dsa => "dsa"
  | .ecdsa => "ecdsa"

def SignatureAlgorithm.ofName? : String → Option SignatureAlgorithm
  | "anonymous" => some .anonymous
  | "rsa" => some .rsa
  | "dsa" => some .dsa
  | "ecdsa" => some .ecdsa
  | _ => none

/-! ### Entry type -/

inductive EntryType where
  | x509
  | precert
deriving DecidableEq, Repr

def EntryType.tag : EntryType → Nat
  | .x509 => 0
  | .precert => 1

def EntryType.ofTag? : Nat → Option EntryType
  | 0 => some .x509
  | 1 => some .precert
  | _ => none

def EntryType.name : EntryType → String
  | .x509 => "x509_entry"
  | .precert => "precert_entry"

def EntryType.ofName? : String → Option EntryType
  | "x509_entry" => some .x509
  | "precert_entry" => some .precert
  | _ => none

/-- What a chain of this type is called. -/
def EntryType.chainName : EntryType → String
  | .x509 => "certificate chain"
  | .precert => "precertificate chain"

/-! ### Tags and names denote what they came from -/

theorem Version.ofTag?_eq_some_iff (n : Nat) (v : Version) : ofTag? n = some v ↔ n = v.tag := by
  unfold ofTag?
  split <;> cases v <;> simp_all [tag]

theorem HashAlgorithm.ofTag?_eq_some_iff (n : Nat) (a : HashAlgorithm) :
    ofTag? n = some a ↔ n = a.tag := by
  unfold ofTag?
  split <;> cases a <;> simp_all [tag]

theorem SignatureAlgorithm.ofTag?_eq_some_iff (n : Nat) (a : SignatureAlgorithm) :
    ofTag? n = some a ↔ n = a.tag := by
  unfold ofTag?
  split <;> cases a <;> simp_all [tag]

theorem EntryType.ofTag?_eq_some_iff (n : Nat) (t : EntryType) : ofTag? n = some t ↔ n = t.tag := by
  unfold ofTag?
  split <;> cases t <;> simp_all [tag]

theorem Version.ofName?_eq_some_iff (s : String) (v : Version) : ofName? s = some v ↔ s = v.name := by
  unfold ofName?
  split <;> cases v <;> simp_all [name]

theorem HashAlgorithm.ofName?_eq_some_iff (s : String) (a : HashAlgorithm) :
    ofName? s = some a ↔ s = a.name := by
  unfold ofName?
  split <;> cases a <;> simp_all [name]

theorem SignatureAlgorithm.ofName?_eq_some_iff (s : String) (a : SignatureAlgorithm) :
    ofName? s = some a ↔ s = a.name := by
  unfold ofName?
  split <;> cases a <;> simp_all [name]

theorem EntryType.ofName?_eq_some_iff (s : String) (t : EntryType) : ofName? s = some t ↔ s = t.name := by
  unfold ofName?
  split <;> cases t <;> simp_all [name]

theorem Version.ofTag?_eq_none_iff : ∀ n : Nat, ofTag? n = none ↔ 0 < n
  | 0 => by decide
  | n + 1 => iff_of_true rfl n.succ_pos

theorem HashAlgorithm.ofTag?_eq_none_iff : ∀ n : Nat, ofTag? n = Option.none ↔ 6 < n
  | 0 | 1 | 2 | 3 | 4 | 5 | 6 => by decide
  | n + 7 => iff_of_true rfl (Nat.le_add_left 7 n)

theorem SignatureAlgorithm.ofTag?_eq_none_iff : ∀ n : Nat, ofTag? n = none ↔ 3 < n
  | 0 | 1 | 2 | 3 => by decide
  | n + 4 => iff_of_true rfl (Nat.le_add_left 4 n)

theorem EntryType.ofTag?_eq_none_iff : ∀ n : Nat, ofTag? n = none ↔ 1 < n
  | 0 | 1 => by decide
  | n + 2 => iff_of_true rfl (Nat.le_add_left 2 n)

end Transparency
