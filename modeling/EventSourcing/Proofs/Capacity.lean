import EventSourcing.Store.Planner

/-!
How much one transaction takes. A write is refused exactly above the limit that the refusal reports,
and whatever is not refused fits beside the header change, in packets that are neither empty nor too
large.
-/

namespace EventSourcing

section

variable {α : Type}

theorem lengths_cutRuns (base groups larger : Nat) (items : List α) (few : larger ≤ groups)
    (size : items.length = base * groups + larger) :
    (cutRuns base groups larger items).map List.length =
      List.replicate larger (base + 1) ++ List.replicate (groups - larger) base := by
  induction groups generalizing larger items with
  | zero =>
    obtain rfl : larger = 0 := by omega
    rfl
  | succ groups ih =>
    rw [Nat.mul_succ] at size
    cases larger with
    | zero =>
      have rest := ih 0 (items.drop base) (Nat.zero_le _) (by rw [List.length_drop]; omega)
      have whole : min base items.length = base := by omega
      simpa [cutRuns, whole, List.replicate_succ] using rest
    | succ larger =>
      have rest := ih larger (items.drop (base + 1)) (by omega)
        (by rw [List.length_drop]; omega)
      have whole : min (base + 1) items.length = base + 1 := by omega
      simpa [cutRuns, whole, List.replicate_succ] using rest

/-- The remainder of the division says how many runs have one more item than the others. -/
theorem lengths_evenRuns (items : List α) (groups : Nat) :
    (evenRuns items groups).map List.length =
      List.replicate (items.length % max groups 1) (items.length / max groups 1 + 1) ++
        List.replicate (max groups 1 - items.length % max groups 1)
          (items.length / max groups 1) := by
  have positive : 0 < max groups 1 := by omega
  refine lengths_cutRuns _ _ _ items (Nat.le_of_lt (Nat.mod_lt _ positive)) ?_
  rw [Nat.mul_comm]
  exact (Nat.div_add_mod items.length (max groups 1)).symm

theorem pairwise_lengths_evenRuns (items : List α) (groups : Nat) :
    ((evenRuns items groups).map List.length).Pairwise (· ≥ ·) := by
  rw [lengths_evenRuns, List.pairwise_append, List.pairwise_replicate, List.pairwise_replicate]
  refine ⟨.inr (Nat.le_refl _), .inr (Nat.le_refl _), fun size early other late => ?_⟩
  rw [List.eq_of_mem_replicate early, List.eq_of_mem_replicate late]
  exact Nat.le_succ _

/-- A run is as long as an even share, rounded down or up. -/
theorem length_of_mem_evenRuns {items run : List α} {groups : Nat}
    (member : run ∈ evenRuns items groups) :
    items.length / max groups 1 ≤ run.length ∧
      run.length ≤ items.length / max groups 1 + 1 ∧
      run.length * max groups 1 < items.length + max groups 1 := by
  have listed := List.mem_map_of_mem (f := List.length) member
  have division := Nat.div_add_mod items.length (max groups 1)
  rw [lengths_evenRuns, List.mem_append] at listed
  generalize items.length / max groups 1 = base at listed division ⊢
  rcases listed with early | late
  · obtain ⟨some, same⟩ := List.mem_replicate.mp early
    rw [same, Nat.succ_mul, Nat.mul_comm]
    omega
  · rw [List.eq_of_mem_replicate late, Nat.mul_comm]
    omega

end

namespace Layout

/-- Where no run is empty, each of them becomes a record. -/
theorem map_events_packed {runs : List (List StoredEvent)} (filled : ∀ run ∈ runs, run ≠ []) :
    ((runs.filterMap Packet.ofList?).map Record.packed).map Record.events = runs := by
  induction runs with
  | nil => rfl
  | cons run rest ih =>
    obtain ⟨here, later⟩ := List.forall_mem_cons.mp filled
    obtain ⟨first, others, rfl⟩ := List.exists_cons_of_ne_nil here
    exact congrArg _ (ih later)

end Layout

namespace StoreSettings

variable {settings : StoreSettings} {count : Nat}

/-- So many events fit into as many packets as there is room for. -/
theorem packetsFor_le_iff (settings : StoreSettings) (count : Nat) :
    settings.packetsFor count ≤ settings.recordBudget ↔
      count ≤ settings.recordBudget * settings.packetRoom := by
  have room := settings.packetRoom_pos
  rw [packetsFor, Nat.div_le_iff_le_mul_add_pred room, Nat.mul_comm]
  omega

/-- The most events that a write may have. Packets may take more than a word can count, which no
write has. -/
def capacity (settings : StoreSettings) : Nat :=
  if settings.packing then wordCapped (settings.recordBudget * settings.packetRoom)
  else settings.recordBudget

theorem recordBudget_le (settings : StoreSettings) :
    settings.recordBudget ≤ settings.recordBudget * settings.packetRoom :=
  Nat.le_mul_of_pos_right _ settings.packetRoom_pos

/-- Single records are taken wherever they fit, and packets only where they are needed. -/
theorem layoutFor_eq_ok_iff (settings : StoreSettings) (count : Nat) (layout : Layout) :
    settings.layoutFor count = .ok layout ↔
      count ≤ settings.recordBudget ∧ layout = .individual ∨
        settings.recordBudget < count ∧ settings.packing = true ∧
          count ≤ settings.recordBudget * settings.packetRoom ∧
          layout = .packets (settings.packetsFor count) := by
  rw [layoutFor]
  by_cases few : count ≤ settings.recordBudget
  · rw [if_pos few, Except.ok.injEq, eq_comm]
    exact ⟨fun same => .inl ⟨few, same⟩,
      fun cases => cases.elim (·.2) fun many => absurd few (Nat.not_le.mpr many.1)⟩
  · rw [if_neg few, ← packetsFor_le_iff]
    have many : settings.recordBudget < count := Nat.not_le.mp few
    by_cases packs : settings.packing
    · by_cases fits : settings.packetsFor count ≤ settings.recordBudget
      · simp [few, many, packs, fits, eq_comm (a := layout)]
      · simp [few, packs, fits]
    · simp [few, packs]

theorem layoutFor_of_le {count : Nat} (fits : count ≤ settings.capacity) :
    ∃ layout, settings.layoutFor count = .ok layout := by
  by_cases few : count ≤ settings.recordBudget
  · exact ⟨_, (settings.layoutFor_eq_ok_iff count _).mpr (.inl ⟨few, rfl⟩)⟩
  · rw [capacity] at fits
    split at fits
    · rename_i packs
      have inside := Nat.le_trans fits (Nat.min_le_left _ _)
      exact ⟨_, (settings.layoutFor_eq_ok_iff count _).mpr
        (.inr ⟨Nat.not_le.mp few, packs, inside, rfl⟩)⟩
    · exact absurd fits few

/-- What is beyond the capacity is refused with the capacity as the limit. -/
theorem layoutFor_of_gt (word : count < UInt64.size) (beyond : settings.capacity < count) :
    settings.layoutFor count = .error (.packingLimitExceeded count settings.capacity) := by
  rw [capacity] at beyond ⊢
  split at beyond
  · rename_i packs
    have above : settings.recordBudget * settings.packetRoom < count := by
      rw [wordCapped] at beyond
      omega
    have few : ¬count ≤ settings.recordBudget :=
      Nat.not_le.mpr (Nat.lt_of_le_of_lt settings.recordBudget_le above)
    have misfit : ¬settings.packetsFor count ≤ settings.recordBudget :=
      (not_congr (settings.packetsFor_le_iff count)).mpr (Nat.not_le.mpr above)
    simp only [layoutFor, if_neg few, if_pos packs, if_neg misfit]
  · rename_i packs
    simp only [layoutFor, if_neg (Nat.not_le.mpr beyond), if_neg packs]

/-- Packets are needed where there are more events than packets, so none stays empty; and as many as
are needed have room for all. -/
theorem bounds_of_packets {events run : List StoredEvent}
    (many : settings.recordBudget < events.length)
    (fits : events.length ≤ settings.recordBudget * settings.packetRoom)
    (member : run ∈ evenRuns events (settings.packetsFor events.length)) :
    run ≠ [] ∧ run.length ≤ settings.packetRoom := by
  have room := settings.packetRoom_pos
  have needed := (settings.packetsFor_le_iff events.length).mpr fits
  have enough : events.length ≤ settings.packetsFor events.length * settings.packetRoom := by
    have rounded := Nat.lt_div_mul_add (a := events.length + settings.packetRoom - 1) room
    rw [packetsFor]
    omega
  have some : 0 < settings.packetsFor events.length :=
    Nat.pos_of_mul_pos_right (Nat.lt_of_lt_of_le (Nat.zero_lt_of_lt many) enough)
  have same : max (settings.packetsFor events.length) 1 = settings.packetsFor events.length := by
    omega
  obtain ⟨low, -, high⟩ := length_of_mem_evenRuns member
  rw [same] at low high
  generalize settings.packetsFor events.length = packets at needed enough some low high
  constructor
  · rintro rfl
    have share : 0 < events.length / packets := Nat.div_pos (by omega) some
    exact absurd low (Nat.not_le.mpr share)
  · refine Nat.le_of_lt_succ (Nat.lt_of_mul_lt_mul_right (a := packets) ?_)
    rw [Nat.succ_mul, Nat.mul_comm settings.packetRoom]
    omega

/-- One limit decides whether a write is planned, and a refusal reports it. What is planned fits
beside the header change: in single records, or, where there are too many events for those, in
packets of the right size, into which the events are dealt evenly. -/
theorem planning_exact (settings : StoreSettings) :
    let budget := settings.maxOperations - 1
    let room := max 1 settings.maxPerPacket
    let limit := if settings.packing then min (budget * room) (UInt64.size - 1) else budget
    (∀ (count : UInt64) (error : Error), settings.layoutFor count.toNat = .error error ↔
      limit < count.toNat ∧ error = .packingLimitExceeded count.toNat limit) ∧
      (∀ (events : List StoredEvent) (layout : Layout), events ≠ [] →
        settings.layoutFor events.length = .ok layout →
        let records := layout.records events
        records.flatMap Record.events = events ∧ records.length ≤ budget ∧ 0 < budget ∧
          match layout with
          | .individual => records = events.map .single
          | .packets count =>
            budget < events.length ∧ records.map Record.events = evenRuns events count ∧
              ∀ packet ∈ evenRuns events count, packet ≠ [] ∧ packet.length ≤ room) ∧
      ∀ {α : Type} (items : List α) (groups : Nat),
        let runs := evenRuns items groups
        let sizes := runs.map List.length
        runs.length = max 1 groups ∧ runs.flatten = items ∧ sizes.Pairwise (· ≥ ·) ∧
          ∀ size ∈ sizes, ∀ other ∈ sizes, size ≤ other + 1 := by
  intro budget room limit
  have roomy : settings.packetRoom = room := Nat.max_comm _ _
  have limited : settings.capacity = limit := by
    simp only [capacity, wordCapped, recordBudget, roomy]
    rfl
  refine ⟨fun count error => ⟨fun refused => ?_, ?_⟩, fun events layout filled planned => ?_,
    fun items groups => ⟨?_, flatten_evenRuns items groups, pairwise_lengths_evenRuns items groups,
      ?_⟩⟩
  · have beyond : limit < count.toNat := by
      refine Nat.not_le.mp fun fits => ?_
      obtain ⟨layout, planned⟩ := layoutFor_of_le (limited ▸ fits)
      cases planned.symm.trans refused
    have reported := layoutFor_of_gt count.toNat_lt (limited ▸ beyond)
    rw [limited] at reported
    exact ⟨beyond, Except.error.inj (refused.symm.trans reported)⟩
  · rintro ⟨beyond, rfl⟩
    rw [layoutFor_of_gt count.toNat_lt (limited ▸ beyond), limited]
  · have some : 0 < events.length := List.length_pos_iff.mpr filled
    refine ⟨Layout.flatMap_records events layout, ?_⟩
    rcases (settings.layoutFor_eq_ok_iff _ layout).mp planned with
      ⟨few, rfl⟩ | ⟨many, -, inside, rfl⟩
    · exact ⟨Nat.le_trans (Nat.le_of_eq (List.length_map _)) few, Nat.lt_of_lt_of_le some few, rfl⟩
    · have bounds : ∀ packet ∈ evenRuns events (settings.packetsFor events.length),
          packet ≠ [] ∧ packet.length ≤ settings.packetRoom :=
        fun packet member => bounds_of_packets many inside member
      have laid := Layout.map_events_packed fun run member => (bounds run member).1
      have needed := (settings.packetsFor_le_iff events.length).mpr inside
      have budgeted : 0 < settings.recordBudget :=
        Nat.pos_of_mul_pos_right (Nat.lt_of_lt_of_le some inside)
      refine ⟨?_, budgeted, many, laid, fun packet member => roomy ▸ bounds packet member⟩
      have counted := congrArg List.length laid
      rw [List.length_map, length_evenRuns] at counted
      exact Nat.le_trans (Nat.le_of_eq counted) (Nat.max_le.mpr ⟨needed, budgeted⟩)
  · exact (length_evenRuns items groups).trans (Nat.max_comm _ _)
  · intro size member other another
    obtain ⟨run, inside, rfl⟩ := List.mem_map.mp member
    obtain ⟨next, beside, rfl⟩ := List.mem_map.mp another
    have high := (length_of_mem_evenRuns inside).2.1
    have low := (length_of_mem_evenRuns beside).1
    exact Nat.le_trans high (Nat.succ_le_succ low)

/-- Room for two packets of four. -/
def narrow : StoreSettings := { maxOperations := 3, maxPerPacket := 4 }

/-- Seven events are packed as four and three; nine are too many. -/
theorem planning_exact_narrow :
    let events : List StoredEvent := List.replicate 7 default
    narrow.layoutFor events.length = .ok (.packets 2) ∧
      ((Layout.packets 2).records events).length ≤ 2 ∧
      ((Layout.packets 2).records events).map Record.events = evenRuns events 2 ∧
      (evenRuns events 2).map List.length = [4, 3] ∧
      narrow.layoutFor 9 = .error (.packingLimitExceeded 9 8) := by
  intro events
  have planned : narrow.layoutFor events.length = .ok (.packets 2) :=
    (layoutFor_eq_ok_iff _ _ _).mpr (.inr (by decide))
  obtain ⟨refused, laid, -⟩ := planning_exact narrow
  obtain ⟨-, few, -, -, packed, -⟩ := laid events _ (show events ≠ [] by simp [events]) planned
  exact ⟨planned, few, packed, by decide, (refused 9 _).mpr ⟨by decide, rfl⟩⟩

end StoreSettings

end EventSourcing
