import EventSourcing.Proofs.Fleet.Course

/-!
One commit for each cause. With idempotent identities the first event of a write has the same
identity whenever its initiator writes to a stream, and a store takes no identity twice.
-/

namespace EventSourcing

namespace Commit.Sound

variable {settings : List StoreSettings} {commit : Commit} {initiator : Uuid}

/-- The first identity depends on the initiator alone. -/
theorem derived_mem (sound : commit.Sound settings)
    (idempotent : ∀ chosen ∈ settings, chosen.idempotency = true) (known : initiator ≠ Uuid.nil)
    (carried : commit.transaction.carries initiator = true) :
    initiator.derived 0 ∈ commit.transaction.events.map (·.id) := by
  have same := sound.initiator_eq carried
  obtain ⟨chosen, listed, planned⟩ := sound.planned
  rw [planned.ids (idempotent chosen listed) (same ▸ known), same, List.mem_map]
  exact ⟨0, List.mem_range.mpr (List.length_pos_iff.mpr sound.filled), rfl⟩

end Commit.Sound

/-- In a list whose entries have no identity in common, at most one has a given identity. -/
theorem length_filter_le_one {α β : Type} {entries : List α} {ids : α → List β} {chosen : α → Bool}
    {id : β} (distinct : (entries.flatMap ids).Nodup)
    (shared : ∀ entry ∈ entries, chosen entry = true → id ∈ ids entry) :
    (entries.filter chosen).length ≤ 1 := by
  induction entries with
  | nil => simp
  | cons entry rest ih =>
    rw [List.flatMap_cons, List.nodup_append] at distinct
    obtain ⟨-, later, apart⟩ := distinct
    by_cases first : chosen entry = true
    · have none : rest.filter chosen = [] := by
        apply List.filter_eq_nil_iff.mpr
        intro other member again
        have here := shared entry List.mem_cons_self first
        have there := shared other (List.mem_cons_of_mem _ member) again
        exact apart id here id (List.mem_flatMap.mpr ⟨other, member, there⟩) rfl
      simp [first, none]
    · rw [List.filter_cons_of_neg first]
      exact ih later fun other member => shared other (List.mem_cons_of_mem _ member)

theorem Store.Follows.length_carrying {store : Store} {settings : List StoreSettings}
    {commits : List Commit} (follows : store.Follows settings commits)
    (idempotent : ∀ chosen ∈ settings, chosen.idempotency = true) (key : StreamKey)
    {initiator : Uuid} (known : initiator ≠ Uuid.nil) :
    ((commitsTo key commits).filter fun commit => commit.transaction.carries initiator).length
      ≤ 1 := by
  have distinct := (follows.streams key).distinct
  rw [follows.events_eq, List.map_flatMap] at distinct
  exact length_filter_le_one distinct fun commit member carried =>
    (follows.commits commit (mem_commitsTo.mp member).1).derived_mem idempotent known carried

namespace Fleet

/-- Where all databases keep identities idempotent, an initiator has at most one transaction in a
stream; once it has one, nothing more is appended for it, from whatever version it is tried. -/
theorem once_per_initiator (planners : List Planner)
    (idempotent : ∀ planner ∈ planners, planner.settings.idempotency = true)
    (actions later : List Action) (key : StreamKey) {initiator : Uuid}
    (known : initiator ≠ Uuid.nil) :
    let fleet := (opened planners).run actions
    ((commitsTo key fleet.commits).filter fun commit =>
        commit.transaction.carries initiator).length ≤ 1 ∧
      (fleet.store.containsInitiator key initiator = true →
        ((fleet.run later).events key).filter (·.initiator = initiator) =
          (fleet.events key).filter (·.initiator = initiator)) := by
  intro fleet
  have inv : fleet.Inv := (inv_opened planners).run actions
  have laterInv : (fleet.run later).Inv := inv.run later
  have all : ∀ chosen ∈ fleet.settings, chosen.idempotency = true := by
    rw [show fleet.settings = (opened planners).settings from settings_run _ actions]
    exact List.forall_mem_map.mpr idempotent
  refine ⟨inv.follows.length_carrying all key known, ?_⟩
  intro found
  obtain ⟨added, whole⟩ := fleet.commits_run later
  obtain ⟨commit, member, carried⟩ := inv.follows.exists_carrying found
  have one : 0 < ((commitsTo key fleet.commits).filter (·.transaction.carries initiator)).length :=
    List.length_pos_of_mem (List.mem_filter.mpr ⟨member, carried⟩)
  -- There is one already, so none of those added later is put down to the initiator.
  have few := laterInv.follows.length_carrying (by rwa [settings_run]) key known
  rw [← whole, commitsTo_append, List.filter_append, List.length_append] at few
  have none : (commitsTo key added).filter (·.transaction.carries initiator) = [] :=
    List.eq_nil_of_length_eq_zero (by omega)
  rw [Fleet.events, Fleet.events, laterInv.follows.events_eq, inv.follows.events_eq, ← whole,
    commitsTo_append, List.flatMap_append, List.filter_append, List.append_right_eq_self]
  apply List.filter_eq_nil_iff.mpr
  intro event inside same
  obtain ⟨commit, member, inside⟩ := List.mem_flatMap.mp inside
  exact List.filter_eq_nil_iff.mp none commit member (List.any_eq_true.mpr ⟨event, inside, same⟩)

/-- Two databases, the second with tighter limits. -/
def uneven : List Planner :=
  [.plain,
    { Planner.plain with settings := { maxOperations := 2, maxPerPacket := 1, retryLimit := 3 } }]

/-- One payment, reported with so many events. -/
def payment (events : List NewEvent) (retrieved : Version) (proper : retrieved.Proper)
    (database : Nat) : Action :=
  .launch database
    { stream := ⟨"account"⟩
      events := events
      retrieved := retrieved
      expected := .any
      origin := { initiator := Uuid.ofNat 7 } } proper

/-- Twins race for the stream, and a third write starts from where the first of them has ended. -/
theorem once_for_twins :
    let paid : NewEvent := ⟨"Paid", .null⟩
    let fleet := (opened uneven).run
      [payment [paid, paid] Version.absent (by decide) 0,
        payment [paid] Version.absent (by decide) 1, .advance 0, .advance 1, .advance 1]
    let later := [payment [paid] ⟨0⟩ (by decide) 1, .advance 0, .advance 2, .advance 2]
    ((commitsTo ⟨"account"⟩ fleet.commits).filter fun commit =>
        commit.transaction.carries (Uuid.ofNat 7)).length ≤ 1 ∧
      ((fleet.run later).events ⟨"account"⟩).filter (·.initiator = Uuid.ofNat 7) =
        (fleet.events ⟨"account"⟩).filter (·.initiator = Uuid.ofNat 7) := by
  intro paid fleet later
  obtain ⟨few, kept⟩ := once_per_initiator uneven (by decide) _ later ⟨"account"⟩
    (show Uuid.ofNat 7 ≠ Uuid.nil by decide)
  exact ⟨few, kept rfl⟩

end Fleet

end EventSourcing
