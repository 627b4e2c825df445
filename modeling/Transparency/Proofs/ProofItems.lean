import Mathlib.Logic.ExistsUnique
import Transparency.Proofs.Natural
import Transparency.Proofs.Showing

/-! What the arguments of `proof` come to.

They are read as items from left to right: an option with its value, which is taken whatever it looks like, or a
node. `ReadAs` is the grammar, and every list of arguments has one reading by it. The command fails with the first
complaint about its reading, and if there is none it works on the nodes in their order and on the last value of each
option, so the order of the items matters no further (`proof_arguments_read`). -/
namespace Transparency.Command

/-! ### Items -/

/-- The options of `proof`, each of which takes a value. -/
inductive ProofOption where
  | leafIndex
  | treeSize
deriving DecidableEq

def ProofOption.flag : ProofOption → String
  | .leafIndex => leafIndexOption
  | .treeSize => treeSizeOption

inductive ProofItem where
  | setting (option : ProofOption) (value : String)
  | node (text : String) (plain : isOption text = false)
deriving DecidableEq

namespace ProofItem

/-- The arguments that make an item. -/
def words : ProofItem → List String
  | setting option value => [option.flag, value]
  | node text _ => [text]

def node? : ProofItem → Option String
  | setting .. => none
  | node text _ => some text

/-- Whether an item is this option with some value. -/
def sets (option : ProofOption) : ProofItem → Bool
  | setting other _ => other = option
  | node .. => false

/-- The number that an item gives an option. -/
def number? (option : ProofOption) : ProofItem → Option UInt64
  | setting other value => if other = option then (Text.Natural.parse value.toList).toOption else none
  | node .. => none

/-- What is wrong with a value that is no number. -/
def refusal? : ProofItem → Option Error
  | setting _ value =>
    match Text.Natural.parse value.toList with
    | .ok _ => none
    | .error error => some (.invalidValue error)
  | node .. => none

end ProofItem

/-- The arguments are these items, and then there is nothing more or an `obstacle`. -/
inductive ReadAs : List String → List ProofItem → (obstacle : Option Error) → Prop where
  | nothing : ReadAs [] [] none
  | noValue {argument : String} {option : ProofOption} : argument = option.flag →
      ReadAs [argument] [] (some (.noValue argument))
  | unknown {argument : String} {rest : List String} : isOption argument = true →
      (∀ option : ProofOption, argument ≠ option.flag) →
        ReadAs (argument :: rest) [] (some (.unknownOption argument))
  | setting {argument value : String} {option : ProofOption} {rest : List String} {items : List ProofItem}
      {obstacle : Option Error} : argument = option.flag → ReadAs rest items obstacle →
        ReadAs (argument :: value :: rest) (.setting option value :: items) obstacle
  | node {text : String} {rest : List String} {items : List ProofItem} {obstacle : Option Error}
      (plain : isOption text = false) : ReadAs rest items obstacle →
        ReadAs (text :: rest) (.node text plain :: items) obstacle

theorem ProofOption.flag_injective : Function.Injective flag := by
  intro a b same
  cases a <;> cases b <;> first | rfl | exact absurd same (by decide)

theorem ProofOption.isOption_flag (option : ProofOption) : isOption option.flag = true := by
  cases option <;> rfl

theorem ProofOption.ne_flag {text : String} (plain : isOption text = false) (option : ProofOption) :
    text ≠ option.flag := by
  rintro rfl
  rw [option.isOption_flag] at plain
  cases plain

theorem exists_readAs : ∀ arguments, ∃ items obstacle, ReadAs arguments items obstacle
  | [] => ⟨[], none, .nothing⟩
  | argument :: rest => by
    by_cases known : ∃ option : ProofOption, argument = option.flag
    · obtain ⟨option, flag⟩ := known
      match rest with
      | [] => exact ⟨_, _, .noValue flag⟩
      | value :: rest =>
        obtain ⟨items, obstacle, read⟩ := exists_readAs rest
        exact ⟨_, _, .setting flag read⟩
    · cases looks : isOption argument with
      | true => exact ⟨_, _, .unknown looks fun option same => known ⟨option, same⟩⟩
      | false =>
        obtain ⟨items, obstacle, read⟩ := exists_readAs rest
        exact ⟨_, _, .node looks read⟩

/-- Arguments have one reading: by its first argument each is an option with or without a value, a node or neither. -/
theorem ReadAs.unique {arguments : List String} {items others : List ProofItem}
    {obstacle obstacle' : Option Error} (h : ReadAs arguments items obstacle)
    (h' : ReadAs arguments others obstacle') : items = others ∧ obstacle = obstacle' := by
  induction h generalizing others obstacle' with
  | nothing =>
    cases h'
    exact ⟨rfl, rfl⟩
  | noValue flag =>
    cases h' with
    | noValue _ => exact ⟨rfl, rfl⟩
    | unknown _ foreign => exact absurd flag (foreign _)
    | node plain _ => exact absurd flag (ProofOption.ne_flag plain _)
  | unknown looks foreign =>
    cases h' with
    | noValue flag => exact absurd flag (foreign _)
    | unknown _ _ => exact ⟨rfl, rfl⟩
    | setting flag _ => exact absurd flag (foreign _)
    | node plain _ => exact absurd (looks.symm.trans plain) (by decide)
  | setting flag _ ih =>
    cases h' with
    | unknown _ foreign => exact absurd flag (foreign _)
    | setting flag' read =>
      obtain ⟨rfl, rfl⟩ := ih read
      rw [ProofOption.flag_injective (flag.symm.trans flag')]
      exact ⟨rfl, rfl⟩
    | node plain _ => exact absurd flag (ProofOption.ne_flag plain _)
  | node plain _ ih =>
    cases h' with
    | noValue flag => exact absurd flag (ProofOption.ne_flag plain _)
    | unknown looks _ => exact absurd (looks.symm.trans plain) (by decide)
    | setting flag _ => exact absurd flag (ProofOption.ne_flag plain _)
    | node _ read =>
      obtain ⟨rfl, rfl⟩ := ih read
      exact ⟨rfl, rfl⟩

/-- Items are read from their words. -/
theorem readAs_words (items : List ProofItem) : ReadAs (items.flatMap ProofItem.words) items none := by
  induction items with
  | nil => exact .nothing
  | cons item rest ih =>
    cases item with
    | setting option value => exact .setting rfl ih
    | node text plain => exact .node plain ih

/-! ### Scanning -/

/-- The last number that the items give an option. -/
def lastNumber (option : ProofOption) (items : List ProofItem) : Option UInt64 :=
  (items.filterMap (ProofItem.number? option)).getLast?

namespace ProofArguments

def set (p : ProofArguments) (n : UInt64) : ProofOption → ProofArguments
  | .leafIndex => {p with leafIndex := some n}
  | .treeSize => {p with treeSize := some n}

/-- What is known when items have been taken on and nothing is left. -/
def taking (p : ProofArguments) (items : List ProofItem) : ProofArguments where
  leafIndex := (lastNumber .leafIndex items).or p.leafIndex
  treeSize := (lastNumber .treeSize items).or p.treeSize
  nodes := p.nodes.reverse ++ items.filterMap ProofItem.node?

theorem scan_setting (p : ProofArguments) (option : ProofOption) (value : String) (rest : List String) :
    p.scan (option.flag :: value :: rest) =
      match Text.Natural.parse value.toList with
      | .ok n => (p.set n option).scan rest
      | .error error => .error (.invalidValue error) := by
  cases option <;> rfl

theorem scan_noValue (p : ProofArguments) (option : ProofOption) :
    p.scan [option.flag] = .error (.noValue option.flag) := by
  cases option <;> rfl

theorem scan_unknown (p : ProofArguments) {argument : String} (rest : List String)
    (looks : isOption argument = true) (foreign : ∀ option : ProofOption, argument ≠ option.flag) :
    p.scan (argument :: rest) = .error (.unknownOption argument) := by
  rw [scan.eq_def]
  exact (if_neg (foreign .leafIndex)).trans <| (if_neg (foreign .treeSize)).trans (if_pos looks)

theorem scan_node (p : ProofArguments) {text : String} (rest : List String) (plain : isOption text = false) :
    p.scan (text :: rest) = scan {p with nodes := text :: p.nodes} rest := by
  have noOption : ¬ isOption text = true := by rw [plain]; decide
  rw [scan.eq_def]
  exact (if_neg (ProofOption.ne_flag plain .leafIndex)).trans <|
    (if_neg (ProofOption.ne_flag plain .treeSize)).trans (if_neg noOption)

theorem lastNumber_setting {option : ProofOption} {value : String} {n : UInt64}
    (parsed : Text.Natural.parse value.toList = .ok n) (other : ProofOption) (items : List ProofItem)
    (before : Option UInt64) :
    (lastNumber other (.setting option value :: items)).or before =
      (lastNumber other items).or (if option = other then some n else before) := by
  by_cases same : option = other
  · have number : ProofItem.number? other (.setting option value) = some n := by
      simp [ProofItem.number?, same, parsed, Except.toOption]
    rw [lastNumber, List.filterMap_cons_some number, List.getLast?_cons, if_pos same]
    show (some ((lastNumber other items).getD n)).or before = _
    cases lastNumber other items <;> rfl
  · have number : ProofItem.number? other (.setting option value) = none := by
      simp [ProofItem.number?, same]
    rw [lastNumber, List.filterMap_cons_none number, if_neg same]
    rfl

theorem taking_setting (p : ProofArguments) {option : ProofOption} {value : String} {n : UInt64}
    (parsed : Text.Natural.parse value.toList = .ok n) (items : List ProofItem) :
    (p.set n option).taking items = p.taking (.setting option value :: items) := by
  simp only [taking, lastNumber_setting parsed]
  cases option <;> rfl

theorem taking_node (p : ProofArguments) {text : String} (plain : isOption text = false)
    (items : List ProofItem) :
    taking {p with nodes := text :: p.nodes} items = p.taking (.node text plain :: items) := by
  simp [taking, lastNumber, ProofItem.number?, ProofItem.node?]

/-- Arguments are refused for the first item that is, else for what is behind the items, and else taken on. -/
theorem scan_of_readAs {arguments : List String} {items : List ProofItem} {obstacle : Option Error}
    (h : ReadAs arguments items obstacle) (p : ProofArguments) :
    p.scan arguments =
      match items.filterMap ProofItem.refusal? ++ obstacle.toList with
      | error :: _ => .error error
      | [] => .ok (p.taking items) := by
  induction h generalizing p with
  | nothing =>
    show Except.ok {p with nodes := p.nodes.reverse} = _
    simp [taking, lastNumber]
  | noValue flag =>
    rw [flag]
    exact p.scan_noValue _
  | unknown looks foreign => exact p.scan_unknown _ looks foreign
  | @setting argument value option rest items obstacle flag read ih =>
    rw [flag, scan_setting]
    cases parsed : Text.Natural.parse value.toList with
    | ok n =>
      have accepted : ProofItem.refusal? (.setting option value) = none := by
        simp only [ProofItem.refusal?, parsed]
      rw [List.filterMap_cons_none accepted, ← taking_setting p parsed]
      exact ih _
    | error error =>
      have refused : ProofItem.refusal? (.setting option value) = some (.invalidValue error) := by
        simp only [ProofItem.refusal?, parsed]
      rw [List.filterMap_cons_some refused]
      rfl
  | node plain read ih =>
    rw [scan_node p _ plain, ih, taking_node p plain]
    rfl

end ProofArguments

/-! ### Complaints -/

/-- The options that no item sets. -/
def unset (items : List ProofItem) : List ProofOption :=
  [.leafIndex, .treeSize].filter fun option => !items.any (ProofItem.sets option)

/-- What there is to say against a reading, first things first: items whose value is no number, what is behind the
items, and then the options that are missing. -/
def complaints (items : List ProofItem) (obstacle : Option Error) : List Error :=
  items.filterMap ProofItem.refusal? ++ obstacle.toList ++
    (unset items).map fun option => .requiredOption option.flag

theorem ProofItem.number?_eq_none_iff {item : ProofItem} (accepted : item.refusal? = none)
    (option : ProofOption) : item.number? option = none ↔ ¬ item.sets option = true := by
  cases item with
  | node text plain => exact iff_of_true rfl nofun
  | setting other value =>
    cases parsed : Text.Natural.parse value.toList with
    | ok n => by_cases same : other = option <;> simp [number?, sets, same, parsed, Except.toOption]
    | error error => simp [refusal?, parsed] at accepted

/-- Where no item is refused, an option has a last number as soon as it is set. -/
theorem lastNumber_isNone {items : List ProofItem} (accepted : ∀ item ∈ items, item.refusal? = none)
    (option : ProofOption) : (lastNumber option items).isNone = !items.any (ProofItem.sets option) := by
  rw [Bool.eq_iff_iff, Option.isNone_iff_eq_none, lastNumber, List.getLast?_eq_none_iff,
    List.filterMap_eq_nil_iff, Bool.not_eq_true', List.any_eq_false]
  exact forall₂_congr fun item member => item.number?_eq_none_iff (accepted item member) option

theorem unset_eq {items : List ProofItem} (accepted : ∀ item ∈ items, item.refusal? = none) :
    unset items = [.leafIndex, .treeSize].filter fun option => (lastNumber option items).isNone := by
  simp only [unset, lastNumber_isNone accepted]

namespace Invocation

/-- The arguments ask for the proof of the nodes of these items, with the last number of each option. -/
def AsksFor (arguments : List String) (items : List ProofItem) : Prop :=
  ∃ leafIndex treeSize, lastNumber .leafIndex items = some leafIndex ∧
    lastNumber .treeSize items = some treeSize ∧
      ofProof arguments = .ok (.proof leafIndex treeSize (items.filterMap ProofItem.node?))

/-- Where nothing else is wrong, the first option that no item sets is missed. -/
theorem ofProof_of_accepted {arguments : List String} {items : List ProofItem}
    (accepted : ∀ item ∈ items, item.refusal? = none)
    (scanned : ProofArguments.scan {} arguments = .ok (ProofArguments.taking {} items)) :
    match unset items with
    | option :: _ => ofProof arguments = .error (.requiredOption option.flag)
    | [] => AsksFor arguments items := by
  have known : ProofArguments.taking {} items =
      ⟨lastNumber .leafIndex items, lastNumber .treeSize items, items.filterMap ProofItem.node?⟩ := by
    simp [ProofArguments.taking]
  rw [unset_eq accepted, ofProof, scanned, known]
  cases leafIndex : lastNumber .leafIndex items with
  | none =>
    rw [List.filter_cons_of_pos (by rw [leafIndex]; rfl)]
    rfl
  | some n =>
    rw [List.filter_cons_of_neg (by rw [leafIndex]; exact Bool.false_ne_true)]
    cases treeSize : lastNumber .treeSize items with
    | none =>
      rw [List.filter_cons_of_pos (by rw [treeSize]; rfl)]
      rfl
    | some m =>
      rw [List.filter_cons_of_neg (by rw [treeSize]; exact Bool.false_ne_true)]
      exact ⟨n, m, leafIndex, treeSize, by rw [ofProof, scanned, known, leafIndex, treeSize]; rfl⟩

/-- What the arguments ask for, or the first complaint about their reading. -/
theorem ofProof_of_readAs {arguments : List String} {items : List ProofItem} {obstacle : Option Error}
    (h : ReadAs arguments items obstacle) :
    match complaints items obstacle with
    | error :: _ => ofProof arguments = .error error
    | [] => AsksFor arguments items := by
  have scanned := ProofArguments.scan_of_readAs h {}
  unfold complaints
  cases front : items.filterMap ProofItem.refusal? ++ obstacle.toList with
  | cons error more =>
    rw [front] at scanned
    show ofProof arguments = .error error
    rw [ofProof, scanned]
    rfl
  | nil =>
    rw [front] at scanned
    have accepted := List.filterMap_eq_nil_iff.1 (List.append_eq_nil_iff.1 front).1
    have asked := ofProof_of_accepted accepted scanned
    cases missing : unset items with
    | cons option others =>
      rw [missing] at asked
      exact asked
    | nil =>
      rw [missing] at asked
      exact asked

end Invocation

/-! ### Results -/

/-- What `proof` comes to with these arguments: the text to print, or why there is none. -/
def proofText (files : Files) (arguments : List String) : Except Error String := do
  let i ← Invocation.ofProof arguments
  (i.perform files).result

theorem Invocation.perform_proof (files : Files) (leafIndex treeSize : UInt64) (nodes : List String) :
    ((proof leafIndex treeSize nodes).perform files).result =
      ((AuditProof.ofTexts nodes leafIndex treeSize).map AuditProof.report).mapError fun error =>
        .decode (.node error) := by
  unfold perform Work.result
  by_cases outside : treeSize ≤ leafIndex
  · simp only [outside, if_true]
    cases AuditProof.ofTexts nodes leafIndex treeSize <;> rfl
  · simp only [outside, if_false]
    cases AuditProof.ofTexts nodes leafIndex treeSize <;> rfl

theorem run_proof (environment : Environment) (files : Files) {words arguments : List String} {program : String}
    (asked : words.filter (· ≠ verboseFlag) = program :: "proof" :: arguments) :
    (run environment files words).Shows (proofText files arguments) := by
  have request : request environment words = .invocation (Invocation.ofProof arguments) := by
    rw [Command.request, asked]
    rfl
  exact run_shows files request

/-- Items that are all accepted say what they say in any order, but for that of the nodes and of the numbers of
one option. -/
theorem proofText_of_perm (files : Files) {items others : List ProofItem} (perm : others.Perm items)
    (accepted : ∀ item ∈ items, item.refusal? = none)
    (nodes : others.filterMap ProofItem.node? = items.filterMap ProofItem.node?)
    (numbers : ∀ option, lastNumber option others = lastNumber option items) :
    proofText files (others.flatMap ProofItem.words) = proofText files (items.flatMap ProofItem.words) := by
  have scanned {items : List ProofItem} (accepted : ∀ item ∈ items, item.refusal? = none) :
      ProofArguments.scan {} (items.flatMap ProofItem.words) = .ok (ProofArguments.taking {} items) := by
    rw [ProofArguments.scan_of_readAs (readAs_words items), List.filterMap_eq_nil_iff.2 accepted]
    rfl
  have same : ProofArguments.taking {} others = ProofArguments.taking {} items := by
    simp only [ProofArguments.taking, numbers, nodes]
  have accepted' : ∀ item ∈ others, item.refusal? = none := fun item member =>
    accepted item (perm.mem_iff.1 member)
  have asked : Invocation.ofProof (others.flatMap ProofItem.words) =
      Invocation.ofProof (items.flatMap ProofItem.words) := by
    rw [Invocation.ofProof, scanned accepted', same, ← scanned accepted]
    rfl
  rw [proofText, asked, proofText]

/-- **The arguments of `proof` are read as items from left to right**, in one way. The first complaint about the
reading is why the command fails; without any, the proof of the nodes is shown, for the last number of each option.
So the order of the items matters only among the nodes and among the values of one option. What the command comes
to is what a run shows. -/
theorem proof_arguments_read (files : Files) :
    (∀ arguments, ∃! reading : List ProofItem × Option Error, ReadAs arguments reading.1 reading.2) ∧
    (∀ arguments items obstacle, ReadAs arguments items obstacle →
      (∀ error rest, complaints items obstacle = error :: rest → proofText files arguments = .error error) ∧
      (complaints items obstacle = [] → ∃ leafIndex treeSize,
        lastNumber .leafIndex items = some leafIndex ∧ lastNumber .treeSize items = some treeSize ∧
          proofText files arguments =
            ((AuditProof.ofTexts (items.filterMap ProofItem.node?) leafIndex treeSize).map
              AuditProof.report).mapError fun error => .decode (.node error))) ∧
    (∀ items others : List ProofItem, others.Perm items → (∀ item ∈ items, item.refusal? = none) →
      others.filterMap ProofItem.node? = items.filterMap ProofItem.node? →
        (∀ option, lastNumber option others = lastNumber option items) →
          proofText files (others.flatMap ProofItem.words) = proofText files (items.flatMap ProofItem.words)) ∧
    (∀ text n, Text.Natural.parse text = .ok n ↔ Text.Natural.Numeral text n) ∧
    ∀ environment words program arguments, words.filter (· ≠ verboseFlag) = program :: "proof" :: arguments →
      (run environment files words).Shows (proofText files arguments) := by
  refine ⟨fun arguments => ?_, fun arguments items obstacle h => ⟨fun error rest first => ?_, fun none => ?_⟩,
    fun items others => proofText_of_perm files, fun text n => Text.Natural.parse_ok_iff,
    fun environment words program arguments => run_proof environment files⟩
  · obtain ⟨items, obstacle, read⟩ := exists_readAs arguments
    refine ⟨(items, obstacle), read, fun other h => ?_⟩
    obtain ⟨same, same'⟩ := h.unique read
    exact Prod.ext same same'
  · have asked := Invocation.ofProof_of_readAs h
    rw [first] at asked
    rw [proofText, asked]
    rfl
  · have asked := Invocation.ofProof_of_readAs h
    rw [none] at asked
    obtain ⟨leafIndex, treeSize, index, size, asked⟩ := asked
    refine ⟨leafIndex, treeSize, index, size, ?_⟩
    rw [← Invocation.perform_proof files, proofText, asked]
    rfl

/-- Items in two orders, the leaf index given twice and once with a sign; a value that looks like an option; and a
run that asks for the items, with a flag in between. -/
theorem proof_arguments_read_reordered :
    let files : Files := fun _ => .error .notFound
    let items : List ProofItem := [.setting .treeSize "9", .node "AQI" rfl, .setting .leafIndex "3",
      .node "AAEC" rfl, .setting .leafIndex "+5"]
    let others : List ProofItem := [.node "AQI" rfl, .node "AAEC" rfl, .setting .leafIndex "3",
      .setting .leafIndex "+5", .setting .treeSize "9"]
    let words := ["--tree-size", "9", "AQI", "--leaf-index", "3", "AAEC", "--leaf-index", "+5"]
    let shown : Except Error String := .ok (AuditProof.report ⟨.v1, 9, 5, [[1, 2], [0, 1, 2]]⟩)
    items.flatMap ProofItem.words = words ∧ proofText files words = shown ∧
      proofText files (others.flatMap ProofItem.words) = shown ∧
      proofText files ["--leaf-index", "--tree-size", "--pem"] = .error (.invalidValue .invalidDigit) ∧
      (run {} files ("ctlog-decode" :: "proof" :: "--verbose" :: words)).Shows shown := by
  intro files items others words shown
  obtain ⟨-, answers, reordered, -, runs⟩ := proof_arguments_read files
  have text : proofText files words = shown := by
    obtain ⟨leafIndex, treeSize, index, size, text⟩ :=
      (answers words items none (readAs_words items)).2 (by decide +kernel)
    have index' : lastNumber .leafIndex items = some 5 := by decide +kernel
    have size' : lastNumber .treeSize items = some 9 := by decide +kernel
    cases index.symm.trans index'
    cases size.symm.trans size'
    have path : AuditProof.ofTexts (items.filterMap ProofItem.node?) 5 9 =
        .ok ⟨.v1, 9, 5, [[1, 2], [0, 1, 2]]⟩ := rfl
    rw [text, path]
    rfl
  refine ⟨rfl, text, ?_, ?_, ?_⟩
  · rw [reordered items others (by decide +kernel) (by decide +kernel) rfl fun option => by cases option <;> rfl]
    exact text
  · have read : ReadAs ["--leaf-index", "--tree-size", "--pem"] [.setting .leafIndex "--tree-size"]
        (some (.unknownOption "--pem")) := by
      refine .setting (show "--leaf-index" = ProofOption.leafIndex.flag from rfl) (.unknown rfl fun option => ?_)
      cases option <;> decide
    exact (answers _ _ _ read).1 _ _ rfl
  · rw [← text]
    exact runs _ _ _ _ rfl

end Transparency.Command
