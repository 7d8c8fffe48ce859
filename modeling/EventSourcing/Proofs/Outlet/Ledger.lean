import EventSourcing.Dispatch.Subscription
import EventSourcing.Proofs.History

/-!
What a subscription was supplied of the commits so far. Of each stream that it observes it has got
every commit, or every commit but the last, which is due to it.
-/

namespace EventSourcing.Subscription

/-- The given transactions belong to observed streams, and of each such stream they are the commits
so far without the one that is due, if there is one. -/
structure Supplied (subscription : Subscription) (commits : List Commit)
    (given : List Transaction) (due : Transaction → Prop) : Prop where
  observed : ∀ transaction ∈ given, subscription.observes transaction.stream = true
  whole : ∀ key, subscription.observes key = true → ∃ owed : Option Transaction,
    (commitsTo key commits).map (·.transaction) =
      given.filter (·.stream = key) ++ owed.toList ∧
    ∀ transaction, transaction.stream = key → (owed = some transaction ↔ due transaction)

/-- Only a commit to a stream is due of it. -/
theorem stream_of_owed {key : StreamKey} {commits : List Commit} {before : List Transaction}
    {transaction : Transaction}
    (line : (commitsTo key commits).map (·.transaction) = before ++ (some transaction).toList) :
    transaction.stream = key := by
  have member : transaction ∈ (commitsTo key commits).map (·.transaction) := by
    rw [line]
    exact List.mem_append_right _ List.mem_cons_self
  obtain ⟨commit, inside, rfl⟩ := List.mem_map.mp member
  exact (mem_commitsTo.mp inside).2

variable {subscription : Subscription} {commits : List Commit}
  {given : List Transaction} {due later : Transaction → Prop}

theorem supplied_nil (none : ∀ transaction, ¬due transaction) :
    subscription.Supplied [] [] due where
  observed _ member := nomatch member
  whole _ _ := ⟨.none, rfl, fun transaction _ => by simp [none transaction]⟩

namespace Supplied

/-- Only what is due in observed streams matters. -/
theorem congr (supplied : subscription.Supplied commits given due)
    (same : ∀ transaction, subscription.observes transaction.stream = true →
      (later transaction ↔ due transaction)) :
    subscription.Supplied commits given later := by
  refine { supplied with whole := fun key observes => ?_ }
  obtain ⟨owed, line, dues⟩ := supplied.whole key observes
  refine ⟨owed, line, ?_⟩
  rintro transaction rfl
  exact (dues transaction rfl).trans (same transaction observes).symm

/-- A commit to a stream of which nothing is due makes its transaction due. -/
theorem commit (supplied : subscription.Supplied commits given due) (commit : Commit)
    (none : ∀ transaction, transaction.stream = commit.transaction.stream → ¬due transaction)
    (more : ∀ transaction, later transaction ↔
      transaction = commit.transaction ∨ due transaction) :
    subscription.Supplied (commits ++ [commit]) given later := by
  refine { supplied with whole := fun key observes => ?_ }
  obtain ⟨owed, line, dues⟩ := supplied.whole key observes
  rw [commitsTo_snoc]
  split
  · rename_i here
    have nothing : owed = .none := by
      cases owed with
      | none => rfl
      | some transaction =>
        have onto := stream_of_owed line
        exact absurd ((dues transaction onto).mp rfl) (none transaction (onto.trans here.symm))
    subst nothing
    refine ⟨some commit.transaction, ?_, ?_⟩
    · simpa using line
    · intro transaction onto
      rw [more, Option.some.injEq]
      constructor
      · exact fun same => .inl same.symm
      · rintro (same | due)
        · exact same.symm
        · exact absurd due (none transaction (onto.trans here.symm))
  · rename_i elsewhere
    refine ⟨owed, line, ?_⟩
    intro transaction onto
    rw [dues transaction onto, more]
    constructor
    · exact .inr
    · rintro (same | due)
      · exact absurd (same ▸ onto) elsewhere
      · exact due

/-- What was due of a stream is given. -/
theorem give (supplied : subscription.Supplied commits given due) {transaction : Transaction}
    (observes : subscription.observes transaction.stream = true) (owes : due transaction)
    (fewer : ∀ other, later other ↔ due other ∧ other.stream ≠ transaction.stream) :
    subscription.Supplied commits (given ++ [transaction]) later := by
  refine { observed := ?_, whole := fun key seen => ?_ }
  · intro other member
    rcases List.mem_append.mp member with old | new
    · exact supplied.observed other old
    · obtain rfl := List.mem_singleton.mp new
      exact observes
  · obtain ⟨owed, line, dues⟩ := supplied.whole key seen
    rw [List.filter_append]
    by_cases here : transaction.stream = key
    · subst here
      obtain rfl := (dues transaction rfl).mpr owes
      refine ⟨.none, by simpa using line, ?_⟩
      intro other onto
      rw [fewer]
      simp [onto]
    · refine ⟨owed, by simpa [here] using line, ?_⟩
      rintro other rfl
      rw [dues other rfl, fewer]
      simp [Ne.symm here]

/-- Whatever is given was committed. -/
theorem exists_commit (supplied : subscription.Supplied commits given due)
    {transaction : Transaction} (member : transaction ∈ given) :
    ∃ commit ∈ commits, commit.transaction = transaction := by
  obtain ⟨owed, line, -⟩ := supplied.whole transaction.stream (supplied.observed _ member)
  have listed : transaction ∈ (commitsTo transaction.stream commits).map (·.transaction) := by
    rw [line]
    exact List.mem_append_left _ (List.mem_filter.mpr ⟨member, decide_eq_true rfl⟩)
  obtain ⟨commit, among, same⟩ := List.mem_map.mp listed
  exact ⟨commit, (mem_commitsTo.mp among).1, same⟩

end Supplied

end EventSourcing.Subscription
