import EventSourcing.Proofs.Stream

/-!
The history of a store: the transactions that it has taken, with the writes that they carry out. A
store follows its history if its streams are sound, hold the records of the commits in their order,
and show the version that the last of them has reached.
-/

namespace EventSourcing

/-- A transaction that a store has taken, the write that it carries out, and the number of the job
that submitted it. -/
structure Commit where
  job : Nat
  write : Write
  transaction : Transaction

def commitsTo (key : StreamKey) (commits : List Commit) : List Commit :=
  commits.filter fun commit => commit.transaction.stream = key

theorem mem_commitsTo {key : StreamKey} {commits : List Commit} {commit : Commit} :
    commit ∈ commitsTo key commits ↔ commit ∈ commits ∧ commit.transaction.stream = key := by
  simp [commitsTo]

theorem commitsTo_append (key : StreamKey) (first second : List Commit) :
    commitsTo key (first ++ second) = commitsTo key first ++ commitsTo key second :=
  List.filter_append first second

theorem commitsTo_snoc (key : StreamKey) (commits : List Commit) (commit : Commit) :
    commitsTo key (commits ++ [commit]) =
      if commit.transaction.stream = key then commitsTo key commits ++ [commit]
      else commitsTo key commits := by
  by_cases same : commit.transaction.stream = key <;> simp [commitsTo, same]

/-- Whether some event of a transaction is put down to an initiator. -/
def Transaction.carries (transaction : Transaction) (initiator : Uuid) : Bool :=
  transaction.events.any fun event => event.initiator = initiator

def Transaction.baseline (transaction : Transaction) : Version := transaction.header.baseline

theorem Planned.baseline_eq {settings : StoreSettings} {write : Write} {baseline : Version}
    {transaction : Transaction} (planned : Planned settings write baseline transaction)
    (proper : baseline.Proper) : transaction.baseline = baseline := by
  rw [Transaction.baseline, planned.header, HeaderChange.baseline_moving proper]

/-- Each transaction goes on from the version that the one before it has reached. -/
def Chain : Version → List Transaction → Version → Prop
  | start, [], finish => start = finish
  | start, transaction :: rest, finish =>
    transaction.baseline = start ∧ Chain transaction.newVersion rest finish

theorem Chain.snoc {start finish : Version} {transactions : List Transaction}
    (chain : Chain start transactions finish) {transaction : Transaction}
    (follows : transaction.baseline = finish) :
    Chain start (transactions ++ [transaction]) transaction.newVersion := by
  induction transactions generalizing start with
  | nil => exact ⟨follows.trans chain.symm, rfl⟩
  | cons first rest ih => exact ⟨chain.1, ih chain.2⟩

/-- Versions only grow along a chain, so that no two of its transactions start from the same. -/
theorem Chain.increasing {start finish : Version} {transactions : List Transaction}
    (chain : Chain start transactions finish)
    (growing : ∀ transaction ∈ transactions,
      transaction.baseline.value < transaction.newVersion.value) :
    (transactions.map (·.baseline.value)).Pairwise (· < ·) ∧
      ∀ transaction ∈ transactions, start.value ≤ transaction.baseline.value := by
  induction transactions generalizing start with
  | nil => simp
  | cons first rest ih =>
    obtain ⟨rfl, later⟩ := chain
    obtain ⟨ordered, above⟩ := ih later fun transaction member =>
      growing transaction (List.mem_cons_of_mem _ member)
    have step := growing first List.mem_cons_self
    simp only [List.map_cons, List.pairwise_cons, List.forall_mem_map, List.mem_cons,
      forall_eq_or_imp]
    refine ⟨⟨?_, ordered⟩, Int.le_refl _, ?_⟩
    · intro transaction member
      have next := above transaction member
      omega
    · intro transaction member
      have next := above transaction member
      omega

/-- A write whose initiator has written to the stream before. -/
def Write.Repeats (write : Write) (commits : List Commit) : Prop :=
  write.origin.initiator ≠ Uuid.nil ∧
    ∃ commit ∈ commits, commit.write.stream = write.stream ∧
      commit.write.origin.initiator = write.origin.initiator

theorem Write.Repeats.mono {write : Write} {fewer more : List Commit}
    (repeats : write.Repeats fewer) (kept : fewer ⊆ more) : write.Repeats more := by
  obtain ⟨known, commit, member, same⟩ := repeats
  exact ⟨known, commit, kept member, same⟩

/-- A commit of a write with events, planned under one of the settings. -/
structure Commit.Sound (settings : List StoreSettings) (commit : Commit) : Prop where
  filled : commit.write.events ≠ []
  proper : commit.transaction.baseline.Proper
  planned : ∃ chosen ∈ settings,
    Planned chosen commit.write commit.transaction.baseline commit.transaction

namespace Commit.Sound

variable {settings : List StoreSettings} {commit : Commit} {initiator : Uuid}

theorem stream (sound : commit.Sound settings) :
    commit.transaction.stream = commit.write.stream := by
  obtain ⟨chosen, -, planned⟩ := sound.planned
  exact planned.stream

theorem growing (sound : commit.Sound settings) :
    commit.transaction.baseline.value < commit.transaction.newVersion.value := by
  obtain ⟨chosen, -, planned⟩ := sound.planned
  have some := List.length_pos_iff.mpr sound.filled
  simp only [planned.newVersion, Version.advance]
  omega

theorem initiator_eq (sound : commit.Sound settings)
    (carried : commit.transaction.carries initiator = true) :
    commit.write.origin.initiator = initiator := by
  obtain ⟨chosen, -, planned⟩ := sound.planned
  simp only [Transaction.carries, List.any_eq_true, decide_eq_true_eq] at carried
  obtain ⟨event, member, same⟩ := carried
  exact (planned.origin member).2.symm.trans same

end Commit.Sound

namespace Store

theorem prefix_submit (store : Store) (transaction : Transaction) (key : StreamKey) :
    (store.stream key).events <+: ((store.submit transaction).1.stream key).events := by
  rw [stream_submit]
  split
  · rw [Stream.events_apply]
    exact List.prefix_append _ _
  · exact List.prefix_refl _

structure Follows (store : Store) (settings : List StoreSettings) (commits : List Commit) :
    Prop where
  streams : ∀ key, (store.stream key).Sound key
  kept : ∀ key, store.records key =
    (commitsTo key commits).flatMap fun commit => commit.transaction.records
  chained : ∀ key, Chain Version.absent ((commitsTo key commits).map (·.transaction))
    (Version.ofCount (store.stream key).events.length)
  commits : ∀ commit ∈ commits, commit.Sound settings

/-- A transaction that is accepted changes its stream and the commits to it, and no other. -/
theorem submit_cases {store : Store} {transaction : Transaction}
    (accepted : (store.stream transaction.stream).accepts transaction = true)
    (commits : List Commit) (commit : Commit) (made : commit.transaction = transaction)
    (key : StreamKey) :
    key = transaction.stream ∧
        (store.submit transaction).1.stream key = (store.stream key).apply transaction ∧
        commitsTo key (commits ++ [commit]) = commitsTo key commits ++ [commit] ∨
      (store.submit transaction).1.stream key = store.stream key ∧
        commitsTo key (commits ++ [commit]) = commitsTo key commits := by
  subst made
  rw [commitsTo_snoc, stream_submit]
  by_cases here : key = commit.transaction.stream
  · subst here
    exact .inl ⟨rfl, by rw [if_pos ⟨rfl, accepted⟩], if_pos rfl⟩
  · exact .inr ⟨if_neg fun both => here both.1, if_neg fun onto => here onto.symm⟩

theorem follows_empty (settings : List StoreSettings) : Follows {} settings [] where
  streams key := Stream.sound_empty key
  kept _ := rfl
  chained _ := rfl
  commits _ member := nomatch member

namespace Follows

variable {store : Store} {settings : List StoreSettings} {commits : List Commit}

theorem header_eq_some (follows : store.Follows settings commits) {key : StreamKey}
    {version : Version} (shown : store.header key = some version) :
    version = Version.ofCount (store.stream key).events.length ∧ version.IsPresent :=
  (follows.streams key).eq_ofCount shown

theorem header_getD (follows : store.Follows settings commits) (key : StreamKey) :
    (store.header key).getD Version.absent = Version.ofCount (store.stream key).events.length := by
  rw [header, (follows.streams key).version, Version.header_getD (Version.proper_ofCount _)]

/-- A stream is what was committed to it, one transaction after the other. -/
theorem events_eq (follows : store.Follows settings commits) (key : StreamKey) :
    (store.stream key).events =
      (commitsTo key commits).flatMap fun commit => commit.transaction.events := by
  have kept := follows.kept key
  rw [records] at kept
  rw [Stream.events, kept, List.flatMap_assoc]
  rfl

/-- An initiator that the store finds in a stream has a transaction there. -/
theorem exists_carrying (follows : store.Follows settings commits) {key : StreamKey}
    {initiator : Uuid} (found : store.containsInitiator key initiator = true) :
    ∃ commit ∈ commitsTo key commits, commit.transaction.carries initiator = true := by
  obtain ⟨event, inside, same⟩ := ((follows.streams key).any_initiator_iff initiator).mp found
  rw [follows.events_eq, List.mem_flatMap] at inside
  obtain ⟨commit, member, inside⟩ := inside
  exact ⟨commit, member, List.any_eq_true.mpr ⟨event, inside, decide_eq_true same⟩⟩

theorem repeats (follows : store.Follows settings commits) {write : Write}
    (known : write.origin.initiator ≠ Uuid.nil)
    (found : store.containsInitiator write.stream write.origin.initiator = true) :
    write.Repeats commits := by
  obtain ⟨commit, member, carried⟩ := follows.exists_carrying found
  obtain ⟨member, onto⟩ := mem_commitsTo.mp member
  have sound := follows.commits commit member
  exact ⟨known, commit, member, sound.stream.symm.trans onto, sound.initiator_eq carried⟩

/-- The step that keeps a store with its history. -/
theorem submit (follows : store.Follows settings commits) {chosen : StoreSettings} {write : Write}
    {baseline : Version} {transaction : Transaction} (listed : chosen ∈ settings)
    (planned : Planned chosen write baseline transaction) (proper : baseline.Proper)
    (filled : write.events ≠ [])
    (accepted : (store.stream transaction.stream).accepts transaction = true) (job : Nat) :
    (store.submit transaction).1.Follows settings (commits ++ [⟨job, write, transaction⟩]) := by
  have same := planned.baseline_eq proper
  have onto := planned.stream
  have start := (follows.streams transaction.stream).start_eq planned proper accepted
  have moved := submit_cases accepted commits ⟨job, write, transaction⟩ rfl
  refine { streams := ?streams, kept := ?kept, chained := ?chained, commits := ?commits }
  case streams =>
    intro key
    rcases moved key with ⟨rfl, stream, -⟩ | ⟨stream, -⟩
    · rw [stream]
      have sound := follows.streams transaction.stream
      rw [onto] at sound accepted ⊢
      exact sound.apply planned proper filled accepted
    · rw [stream]
      exact follows.streams key
  case kept =>
    intro key
    have kept := follows.kept key
    rw [records] at kept ⊢
    rcases moved key with ⟨rfl, stream, commits⟩ | ⟨stream, commits⟩
    · rw [stream, commits, List.flatMap_append, ← kept]
      simp [Stream.apply]
    · rw [stream, commits]
      exact kept
  case chained =>
    intro key
    rcases moved key with ⟨rfl, stream, commits⟩ | ⟨stream, commits⟩
    · have chained := (follows.chained transaction.stream).snoc (same.trans start)
      rw [stream, commits, ← planned.newVersion_eq start]
      simpa using chained
    · rw [stream, commits]
      exact follows.chained key
  case commits =>
    intro commit member
    rcases List.mem_append.mp member with old | new
    · exact follows.commits commit old
    · obtain rfl := List.mem_singleton.mp new
      exact ⟨filled, same ▸ proper, chosen, listed, same ▸ planned⟩

end Follows

end Store

end EventSourcing
