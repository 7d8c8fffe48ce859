import EventSourcing.Proofs.Fleet.Course
import Mathlib.Data.List.Induction

/-!
Readers beside writers. A reader begins, and at some later moment the store is asked for the events
or the header of one stream; between any two such moments writers go on. Whatever a reader is told
is the stream after some of its commits, and a reader who begins after another was answered is told
no less.
-/

namespace EventSourcing

/-- A chain ends where it starts, or where one of its transactions has ended. -/
theorem Chain.finish_mem {start finish : Version} {transactions : List Transaction}
    (chain : Chain start transactions finish) :
    finish = start ∨ ∃ transaction ∈ transactions, finish = transaction.newVersion := by
  induction transactions generalizing start with
  | nil => exact .inl chain.symm
  | cons first rest ih =>
    rcases ih chain.2 with here | ⟨transaction, member, there⟩
    · exact .inr ⟨first, List.mem_cons_self, here⟩
    · exact .inr ⟨transaction, List.mem_cons_of_mem _ member, there⟩

/-- A question about one stream. -/
structure Reading (α : Type) where
  key : StreamKey
  /-- The moment at which the reader began. -/
  began : Nat
  /-- The moment at which the store was asked, and its answer. -/
  answered : Option (Nat × α) := none

namespace Reading

variable {α : Type}

/-- The store is asked once. -/
def ask (reading : Reading α) (moment : Nat) (answer : StreamKey → α) : Reading α :=
  match reading.answered with
  | none => { reading with answered := some (moment, answer reading.key) }
  | some _ => reading

/-- Whether a reading was begun before `now` and its answer, if there is one, was given since, as it
was `shown` at that moment. -/
structure Sound (shown : Nat → StreamKey → α) (now : Nat) (reading : Reading α) : Prop where
  began : reading.began < now
  answered : ∀ moment answer, reading.answered = some (moment, answer) →
    reading.began ≤ moment ∧ moment < now ∧ answer = shown moment reading.key

variable {shown other : Nat → StreamKey → α} {now : Nat} {reading : Reading α}

theorem Sound.later (sound : reading.Sound shown now)
    (same : ∀ moment, moment < now → other moment = shown moment) :
    reading.Sound other (now + 1) where
  began := Nat.lt_succ_of_lt sound.began
  answered moment answer given := by
    obtain ⟨since, past, told⟩ := sound.answered moment answer given
    exact ⟨since, Nat.lt_succ_of_lt past, told.trans (congrFun (same moment past) _).symm⟩

theorem sound_begun (shown : Nat → StreamKey → α) (now : Nat) (key : StreamKey) :
    Sound shown (now + 1) { key := key, began := now } where
  began := Nat.lt_succ_self now
  answered _ _ given := nomatch given

theorem Sound.ask (sound : reading.Sound shown now)
    (same : ∀ moment, moment < now → other moment = shown moment) :
    (reading.ask now (other now)).Sound other (now + 1) := by
  cases given : reading.answered with
  | some answer =>
    simp only [Reading.ask, given]
    exact sound.later same
  | none =>
    simp only [Reading.ask, given]
    refine ⟨Nat.lt_succ_of_lt sound.began, ?_⟩
    rintro moment answer told
    obtain ⟨rfl, rfl⟩ := Prod.mk.inj (Option.some.inj told)
    exact ⟨Nat.le_of_lt sound.began, Nat.lt_succ_self now, rfl⟩

variable {readings : List (Reading α)}

theorem sound_begin (sound : ∀ reading ∈ readings, reading.Sound shown now)
    (same : ∀ moment, moment < now → other moment = shown moment) (key : StreamKey) :
    ∀ reading ∈ readings ++ [{ key := key, began := now }], reading.Sound other (now + 1) := by
  intro reading member
  rcases List.mem_append.mp member with old | new
  · exact (sound reading old).later same
  · obtain rfl := List.mem_singleton.mp new
    exact sound_begun other now key

theorem sound_answer (sound : ∀ reading ∈ readings, reading.Sound shown now)
    (same : ∀ moment, moment < now → other moment = shown moment) (number : Nat) :
    ∀ reading ∈ readings.modify number (·.ask now (other now)), reading.Sound other (now + 1) := by
  intro reading member
  obtain ⟨place, found⟩ := List.mem_iff_getElem?.mp member
  rw [List.getElem?_modify] at found
  obtain ⟨before, listed, rfl⟩ := Option.map_eq_some_iff.mp found
  have known := sound before (List.mem_of_getElem? listed)
  split
  · exact known.ask same
  · exact known.later same

end Reading

/-- Those who look at streams, and the writers at work. -/
structure Onlookers where
  fleet : Fleet
  /-- How much has happened so far. -/
  now : Nat := 0
  reads : List (Reading (Except Error (List StoredEvent))) := []
  headers : List (Reading (Except Error (Option Version))) := []

namespace Onlookers

/-- What can happen next. -/
inductive Action where
  | work (action : Fleet.Action)
  | beginRead (key : StreamKey)
  | answerRead (number : Nat)
  | beginHeader (key : StreamKey)
  | answerHeader (number : Nat)

def events (onlookers : Onlookers) (key : StreamKey) : Except Error (List StoredEvent) :=
  (Store.backend.read key onlookers.fleet.store).1

def header (onlookers : Onlookers) (key : StreamKey) : Except Error (Option Version) :=
  (Store.backend.readHeader key onlookers.fleet.store).1

def act (onlookers : Onlookers) (action : Action) : Onlookers :=
  let now := onlookers.now
  let later := { onlookers with now := now + 1 }
  match action with
  | .work action => { later with fleet := onlookers.fleet.act action }
  | .beginRead key => { later with reads := onlookers.reads ++ [{ key := key, began := now }] }
  | .answerRead number =>
    { later with reads := onlookers.reads.modify number (·.ask now onlookers.events) }
  | .beginHeader key =>
    { later with headers := onlookers.headers ++ [{ key := key, began := now }] }
  | .answerHeader number =>
    { later with headers := onlookers.headers.modify number (·.ask now onlookers.header) }

def run (onlookers : Onlookers) (actions : List Action) : Onlookers :=
  actions.foldl act onlookers

/-- Databases over a store that nothing was written to, and nobody who reads. -/
def opened (planners : List Planner) : Onlookers := { fleet := Fleet.opened planners }

/-- What a run has come to after so many of its actions. -/
def reached (planners : List Planner) (actions : List Action) (moment : Nat) : Onlookers :=
  (opened planners).run (actions.take moment)

theorem fleet_step (onlookers : Onlookers) (action : Action) :
    onlookers.fleet.Step (onlookers.act action).fleet := by
  cases action with
  | work action => exact onlookers.fleet.act_step action
  | _ => exact .rests

theorem inv_run {onlookers : Onlookers} (inv : onlookers.fleet.Inv) (actions : List Action) :
    (onlookers.run actions).fleet.Inv := by
  induction actions generalizing onlookers with
  | nil => exact inv
  | cons action rest ih => exact ih (inv.step (onlookers.fleet_step action))

theorem commits_run (onlookers : Onlookers) (actions : List Action) :
    onlookers.fleet.commits <+: (onlookers.run actions).fleet.commits := by
  induction actions generalizing onlookers with
  | nil => exact List.prefix_refl _
  | cons action rest ih =>
    exact (onlookers.fleet_step action).commits_grow.trans (ih (onlookers.act action))

theorem now_run (onlookers : Onlookers) (actions : List Action) :
    (onlookers.run actions).now = onlookers.now + actions.length := by
  induction actions generalizing onlookers with
  | nil => rfl
  | cons action rest ih =>
    have one : (onlookers.act action).now = onlookers.now + 1 := by cases action <;> rfl
    have later := ih (onlookers.act action)
    rw [one] at later
    rw [List.length_cons]
    exact later.trans (by omega)

theorem run_append (onlookers : Onlookers) (first second : List Action) :
    onlookers.run (first ++ second) = (onlookers.run first).run second :=
  List.foldl_append

section

variable (planners : List Planner) (actions : List Action)

/-- What was committed at a moment stays so. -/
theorem commits_reached {early late : Nat} (order : early ≤ late) :
    (reached planners actions early).fleet.commits <+:
      (reached planners actions late).fleet.commits := by
  obtain ⟨between, whole⟩ := List.take_prefix_take_left (l := actions) order
  rw [reached, reached, ← whole, run_append]
  exact commits_run _ _

theorem reached_inv (moment : Nat) : (reached planners actions moment).fleet.Inv :=
  inv_run (Fleet.inv_opened planners) _

theorem reached_end : reached planners actions actions.length = (opened planners).run actions := by
  rw [reached, List.take_length]

/-- Whether each reading of a run was answered as the streams were at that moment. -/
structure Told : Prop where
  reads : ∀ reading ∈ ((opened planners).run actions).reads,
    reading.Sound (fun moment => (reached planners actions moment).events) actions.length
  headers : ∀ reading ∈ ((opened planners).run actions).headers,
    reading.Sound (fun moment => (reached planners actions moment).header) actions.length

end

theorem reads_act {onlookers : Onlookers}
    {shown other : Nat → StreamKey → Except Error (List StoredEvent)}
    (sound : ∀ reading ∈ onlookers.reads, reading.Sound shown onlookers.now)
    (same : ∀ moment, moment < onlookers.now → other moment = shown moment)
    (here : other onlookers.now = onlookers.events) (action : Action) :
    ∀ reading ∈ (onlookers.act action).reads, reading.Sound other (onlookers.now + 1) := by
  cases action with
  | beginRead key => exact Reading.sound_begin sound same key
  | answerRead number =>
    simp only [act, ← here]
    exact Reading.sound_answer sound same number
  | _ => exact fun reading member => (sound reading member).later same

theorem headers_act {onlookers : Onlookers}
    {shown other : Nat → StreamKey → Except Error (Option Version)}
    (sound : ∀ reading ∈ onlookers.headers, reading.Sound shown onlookers.now)
    (same : ∀ moment, moment < onlookers.now → other moment = shown moment)
    (here : other onlookers.now = onlookers.header) (action : Action) :
    ∀ reading ∈ (onlookers.act action).headers, reading.Sound other (onlookers.now + 1) := by
  cases action with
  | beginHeader key => exact Reading.sound_begin sound same key
  | answerHeader number =>
    simp only [act, ← here]
    exact Reading.sound_answer sound same number
  | _ => exact fun reading member => (sound reading member).later same

theorem told_run (planners : List Planner) (actions : List Action) : Told planners actions := by
  induction actions using List.reverseRecOn with
  | nil =>
    constructor
    · exact fun _ member => nomatch member
    · exact fun _ member => nomatch member
  | append_singleton actions action ih =>
    -- One more action does not change what the earlier ones have led to.
    have same (moment : Nat) (past : moment ≤ actions.length) :
        reached planners (actions ++ [action]) moment = reached planners actions moment := by
      rw [reached, List.take_append_of_le_length past, reached]
    have here := (same _ (Nat.le_refl _)).trans (reached_end planners actions)
    have now : ((opened planners).run actions).now = actions.length :=
      (now_run _ _).trans (Nat.zero_add _)
    have step : (opened planners).run (actions ++ [action]) =
        ((opened planners).run actions).act action := by
      rw [run_append]
      rfl
    obtain ⟨reads, headers⟩ := ih
    rw [← now] at reads headers
    have past (moment : Nat) (before : moment < ((opened planners).run actions).now) :=
      same moment (now ▸ Nat.le_of_lt before)
    constructor
    all_goals rw [step, List.length_append, List.length_singleton, ← now]
    · exact reads_act reads (fun moment before => by rw [past moment before]) (by rw [now, here]) _
    · exact headers_act headers (fun moment before => by rw [past moment before])
        (by rw [now, here]) _

section

variable (planners : List Planner) (actions : List Action) (key : StreamKey)

/-- The commits to a stream at a moment. -/
def commitsAt (moment : Nat) : List Commit :=
  commitsTo key (reached planners actions moment).fleet.commits

def eventsAt (moment : Nat) : List StoredEvent :=
  (commitsAt planners actions key moment).flatMap (·.transaction.events)

theorem prefix_commitsAt {early late : Nat} (order : early ≤ late) :
    commitsAt planners actions key early <+: commitsAt planners actions key late :=
  (commits_reached planners actions order).filter _

theorem prefix_eventsAt {early late : Nat} (order : early ≤ late) :
    eventsAt planners actions key early <+: eventsAt planners actions key late := by
  obtain ⟨more, whole⟩ := prefix_commitsAt planners actions key order
  rw [eventsAt, eventsAt, ← whole, List.flatMap_append]
  exact List.prefix_append _ _

theorem events_reached (moment : Nat) :
    (reached planners actions moment).events key = .ok (eventsAt planners actions key moment) :=
  congrArg Except.ok ((reached_inv planners actions moment).follows.events_eq key)

theorem header_reached (moment : Nat) :
    (reached planners actions moment).header key =
      .ok (Version.ofCount (eventsAt planners actions key moment).length).header := by
  have follows := (reached_inv planners actions moment).follows
  rw [eventsAt, commitsAt, ← follows.events_eq key, ← (follows.streams key).version]
  rfl

/-- A header shows nothing, or where some commit has ended. -/
theorem header_cases (moment : Nat) :
    (reached planners actions moment).header key = .ok none ∨
      ∃ commit ∈ commitsAt planners actions key moment,
        (reached planners actions moment).header key = .ok (some commit.transaction.newVersion) := by
  have follows := (reached_inv planners actions moment).follows
  have ends := (follows.chained key).finish_mem
  rw [follows.events_eq] at ends
  rw [header_reached, eventsAt, commitsAt]
  rcases ends with absent | ⟨transaction, there, ends⟩
  · exact .inl (by rw [absent]; rfl)
  · obtain ⟨commit, inside, rfl⟩ := List.mem_map.mp there
    rw [ends]
    by_cases present : commit.transaction.newVersion.IsPresent
    · exact .inr ⟨commit, inside, by rw [Version.header, if_pos present]⟩
    · exact .inl (by rw [Version.header, if_neg present])

/-- A header that shows a version shows one later on, which is no earlier version. -/
theorem header_grows {early late : Nat} (order : early ≤ late) {shown : Version}
    (seen : (reached planners actions early).header key = .ok (some shown)) :
    ∃ version, (reached planners actions late).header key = .ok (some version) ∧
      shown.value ≤ version.value := by
  rw [header_reached, Except.ok.injEq, Version.header_eq_some_iff] at seen
  obtain ⟨present, rfl⟩ := seen
  have longer := (prefix_eventsAt planners actions key order).length_le
  have grown : (Version.ofCount (eventsAt planners actions key early).length).value ≤
      (Version.ofCount (eventsAt planners actions key late).length).value := by
    simp only [Version.ofCount]
    omega
  refine ⟨_, ?_, grown⟩
  rw [header_reached, Except.ok.injEq, Version.header_eq_some_iff]
  exact ⟨Int.le_trans present grown, rfl⟩

end

/-- A stream that is read is what some of its first commits hold. A reader who begins after another
was answered is told all that the other was told, and perhaps more behind it. The header never goes
back, and what it shows is where a commit to the stream has ended. -/
theorem snapshots_append_only (planners : List Planner) (actions : List Action) :
    let onlookers := (opened planners).run actions
    let commits := onlookers.fleet.commits
    (∀ reading ∈ onlookers.reads, ∀ moment answer, reading.answered = some (moment, answer) →
      ∃ count ≤ (commitsTo reading.key commits).length,
        answer = .ok (((commitsTo reading.key commits).take count).flatMap
          fun commit => commit.transaction.events)) ∧
    (∀ first ∈ onlookers.reads, ∀ second ∈ onlookers.reads, first.key = second.key →
      ∀ early late seen found, first.answered = some (early, .ok seen) →
        second.answered = some (late, .ok found) → early < second.began → seen <+: found) ∧
    (∀ reading ∈ onlookers.headers, ∀ moment answer, reading.answered = some (moment, answer) →
      answer = .ok none ∨ ∃ commit ∈ commitsTo reading.key commits,
        answer = .ok (some commit.transaction.newVersion)) ∧
    (∀ first ∈ onlookers.headers, ∀ second ∈ onlookers.headers, first.key = second.key →
      ∀ early late shown answer, first.answered = some (early, .ok (some shown)) →
        second.answered = some (late, answer) → early < second.began →
        ∃ version, answer = .ok (some version) ∧ shown.value ≤ version.value) := by
  intro onlookers commits
  have told := told_run planners actions
  have some (key : StreamKey) {moment : Nat} (past : moment < actions.length) :
      commitsAt planners actions key moment <+: commitsTo key commits := by
    have whole := prefix_commitsAt planners actions key (Nat.le_of_lt past)
    rwa [commitsAt.eq_def _ _ _ actions.length, reached_end] at whole
  refine ⟨?_, ?_, ?_, ?_⟩
  · intro reading member moment answer given
    obtain ⟨-, past, rfl⟩ := (told.reads reading member).answered moment answer given
    refine ⟨_, (some reading.key past).length_le, ?_⟩
    rw [← List.prefix_iff_eq_take.mp (some reading.key past)]
    exact events_reached planners actions reading.key moment
  · intro first firstIn second secondIn same early late seen found givenFirst givenSecond order
    obtain ⟨-, -, shownFirst⟩ := (told.reads first firstIn).answered _ _ givenFirst
    obtain ⟨since, -, shownSecond⟩ := (told.reads second secondIn).answered _ _ givenSecond
    rw [events_reached, Except.ok.injEq] at shownFirst shownSecond
    rw [shownFirst, shownSecond, same]
    exact prefix_eventsAt planners actions second.key (Nat.le_trans (Nat.le_of_lt order) since)
  · intro reading member moment answer given
    obtain ⟨-, past, rfl⟩ := (told.headers reading member).answered moment answer given
    refine (header_cases planners actions reading.key moment).imp_right ?_
    rintro ⟨commit, inside, ends⟩
    exact ⟨commit, (some reading.key past).subset inside, ends⟩
  · intro first firstIn second secondIn same early late shown answer givenFirst givenSecond order
    obtain ⟨-, -, shownFirst⟩ := (told.headers first firstIn).answered _ _ givenFirst
    obtain ⟨since, -, rfl⟩ := (told.headers second secondIn).answered _ _ givenSecond
    exact header_grows planners actions second.key (Nat.le_trans (Nat.le_of_lt order) since)
      (same ▸ shownFirst.symm)

end Onlookers

end EventSourcing
