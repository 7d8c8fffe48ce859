import EventSourcing.Event.Codec
import EventSourcing.Proofs.Desk
import EventSourcing.Proofs.Saves

/-!
Expectations with one code. An expectation is compared, ordered and written down by its code, but a
save looks at what it is. The two agree wherever the version expected is one that a stream can have.
To expect a version below those is to expect what no stream meets, although its code may be that of
"none" or of "any".
-/

namespace EventSourcing

variable {κ : Type} [EventFamily κ] {σ : Type}

namespace ExpectedVersion

/-- Whether the expectation is one of a version that no stream with events has. -/
def IsVoid : ExpectedVersion → Prop
  | .exact version => ¬version.IsPresent
  | .none | .any => False

theorem beq_iff (first second : ExpectedVersion) :
    (first == second) = true ↔ first.code = second.code :=
  beq_iff_eq (a := first.code)

/-- No stream is as such an expectation says. -/
theorem IsVoid.not_admits {expected : ExpectedVersion} (void : expected.IsVoid)
    (retrieved : Version) : ¬expected.Admits retrieved := by
  cases expected with
  | none => exact void.elim
  | any => exact void.elim
  | exact version =>
    rintro ⟨present, rfl⟩
    exact void present

/-- Two expectations of one code are the same, if both are void or neither is. -/
theorem eq_of_code_eq {first second : ExpectedVersion} (codes : first.code = second.code)
    (alike : first.IsVoid ↔ second.IsVoid) : first = second := by
  cases first <;> cases second <;>
    simp only [code, IsVoid, Version.IsPresent, false_iff, iff_false, Decidable.not_not]
      at codes alike
  case none.none => rfl
  case any.any => rfl
  case exact.exact one other => exact congrArg exact (congrArg Version.mk codes)
  all_goals omega

theorem valid_of_not_isVoid {expected : ExpectedVersion} (met : ¬expected.IsVoid) :
    ∀ version, expected = .exact version → version.IsPresent := by
  rintro version rfl
  exact Decidable.not_not.mp met

/-- What a code stands for has that code and can be met. -/
theorem of_ofCode {code : Int} {expected : ExpectedVersion} (decoded : ofCode code = .ok expected) :
    expected.code = code ∧ ¬expected.IsVoid := by
  unfold ofCode ofExact at decoded
  split at decoded
  case isTrue none =>
    cases decoded
    exact ⟨none.symm, not_false⟩
  case isFalse =>
    split at decoded
    case isTrue any =>
      cases decoded
      exact ⟨any.symm, not_false⟩
    case isFalse =>
      split at decoded
      case isTrue => exact nomatch decoded
      case isFalse present =>
        cases decoded
        exact ⟨rfl, not_not_intro (Int.not_lt.mp present)⟩

theorem of_ofJson_toJson {expected decoded : ExpectedVersion}
    (read : ofJson expected.toJson = .ok decoded) :
    decoded.code = expected.code ∧ ¬decoded.IsVoid := by
  by_cases small : (Text.Bounds.signed 64).Holds expected.code
  · simp only [ofJson, toJson, Json.readSigned64, Json.readInteger, if_pos small, bind,
      Except.bind, pure, Except.pure] at read
    split at read
    case h_1 found =>
      cases read
      exact of_ofCode found
    case h_2 => exact nomatch read
  · simp [ofJson, toJson, Json.readSigned64, Json.readInteger, small, bind, Except.bind] at read

/-- An expectation that can be met is read back as it was written down. -/
theorem ofJson_toJson {expected : ExpectedVersion} (met : ¬expected.IsVoid)
    (small : (Text.Bounds.signed 64).Holds expected.code) :
    ofJson expected.toJson = .ok expected := by
  simp only [ofJson, toJson, Json.readSigned64, Json.readInteger, if_pos small, bind, Except.bind,
    ofCode_code expected (valid_of_not_isVoid met), pure, Except.pure]

end ExpectedVersion

namespace Repository

/-- Whether two saves leave the same and answer the same, up to how the expectation is reported. -/
def Alike {type : AggregateType κ} (one other : Except Error Unit × Snapshot type × σ) : Prop :=
  one.2 = other.2 ∧ (one.1 = other.1 ∨ ∃ stream first second retrieved,
    first.code = second.code ∧
    one.1 = .error (.unexpectedVersion stream first retrieved none) ∧
    other.1 = .error (.unexpectedVersion stream second retrieved none))

theorem save_of_misfit (repository : Repository κ σ) (id : repository.type.Id)
    {snapshot : Snapshot repository.type} {expected : ExpectedVersion}
    (misfit : ¬expected.Admits snapshot.version) (origin : Origin) (state : σ) :
    repository.save id snapshot expected origin state =
      (.error (.unexpectedVersion (repository.stream id) expected snapshot.version none), snapshot,
        state) := by
  rw [save, AggregateType.saveRequest_of_misfit misfit]

/-- What two expectations of one code refuse, they refuse alike. -/
theorem alike_of_misfit (repository : Repository κ σ) (id : repository.type.Id)
    {snapshot : Snapshot repository.type} {first second : ExpectedVersion}
    (codes : first.code = second.code) (misfit : ¬first.Admits snapshot.version)
    (other : ¬second.Admits snapshot.version) (origin : Origin) (state : σ) :
    Alike (repository.save id snapshot first origin state)
      (repository.save id snapshot second origin state) := by
  rw [save_of_misfit repository id misfit, save_of_misfit repository id other]
  exact ⟨rfl, .inr ⟨_, _, _, _, codes, rfl, rfl⟩⟩

/-- Saves with expectations that count as equal end alike and leave the same, unless one of the two
is void where the aggregate is at a version as the other says. A void one is always refused, before
the database is asked. So a save is the same with what its expectation is read back as, provided
that this was not void. -/
theorem saves_agree (repository : Repository κ σ) (id : repository.type.Id)
    (snapshot : Snapshot repository.type) (first second : ExpectedVersion) (origin : Origin)
    (state : σ) (equal : (first == second) = true) :
    let save expected := repository.save id snapshot expected origin state
    (¬(first.IsVoid ∧ second.Admits snapshot.version) →
      ¬(second.IsVoid ∧ first.Admits snapshot.version) → Alike (save first) (save second)) ∧
    ((first.IsVoid ↔ second.IsVoid) → save first = save second) ∧
    (first.IsVoid → save first =
      (.error (.unexpectedVersion (repository.stream id) first snapshot.version none), snapshot,
        state)) ∧
    (∀ decoded, ExpectedVersion.ofJson first.toJson = .ok decoded →
      (first == decoded) = true ∧ (¬first.IsVoid → save decoded = save first)) ∧
    (¬first.IsVoid → (Text.Bounds.signed 64).Holds first.code →
      ExpectedVersion.ofJson first.toJson = .ok first) := by
  intro save
  have codes := (ExpectedVersion.beq_iff first second).mp equal
  have same (alike : first.IsVoid ↔ second.IsVoid) : save first = save second :=
    congrArg save (ExpectedVersion.eq_of_code_eq codes alike)
  refine ⟨?_, same, ?_, ?_, ExpectedVersion.ofJson_toJson⟩
  · intro void other
    by_cases alike : first.IsVoid ↔ second.IsVoid
    · exact same alike ▸ ⟨rfl, .inl rfl⟩
    · -- exactly one is void, so neither admits the version
      by_cases here : first.IsVoid
      · exact alike_of_misfit repository id codes (here.not_admits _)
          (fun admitted => void ⟨here, admitted⟩) origin state
      · have there : second.IsVoid := by
          by_contra absent
          exact alike (iff_of_false here absent)
        exact alike_of_misfit repository id codes (fun admitted => other ⟨there, admitted⟩)
          (there.not_admits _) origin state
  · intro void
    exact save_of_misfit repository id (void.not_admits _) origin state
  · intro decoded read
    obtain ⟨code, met⟩ := ExpectedVersion.of_ofJson_toJson read
    refine ⟨(ExpectedVersion.beq_iff first decoded).mpr code.symm, ?_⟩
    intro readable
    exact congrArg save (ExpectedVersion.eq_of_code_eq code (iff_of_false met readable))

/-- A counter that was never saved, with one step to be saved. -/
def stepped : Snapshot Sample.counter :=
  unsaved [⟨.incremented, (1 : Int32)⟩]

/-- A counter at a version is saved neither as new nor as one at the version before the first; the
refusals differ in what they report, and what is read back is reported as "none". -/
theorem saves_agree_counter :
    let first : ExpectedVersion := .exact Version.absent
    let snapshot : Snapshot Sample.counter := { stepped with version := ⟨0⟩ }
    let repository := Sample.counter.over StreamNaming.byType
    let save expected :=
      repository.save "account" snapshot expected {} (Planner.plain, ({} : Store))
    ((first == .none) = true ∧ Alike (save first) (save .none)) ∧
      ExpectedVersion.ofJson first.toJson = .ok .none := by
  intro first snapshot repository save
  obtain ⟨alike, -⟩ := saves_agree repository "account" snapshot first .none {}
    (Planner.plain, {}) rfl
  have present : ¬ExpectedVersion.none.Admits snapshot.version := by decide
  exact ⟨⟨rfl, alike (fun void => present void.2) (fun void => void.1)⟩, rfl⟩

/-- A new counter is saved as such, but is refused at the version that stands for none: two
expectations that count as equal, and one is what the other is read back as. -/
theorem equal_expectations_differ :
    let repository := Sample.counter.over StreamNaming.byType
    let second : ExpectedVersion := .exact Version.absent
    let state := (Planner.plain, ({} : Store))
    let (answer, after, left) := repository.save "account" stepped .none {} state
    let (refused, same, rest) := repository.save "account" stepped second {} state
    ((second == .none) = true ∧ ExpectedVersion.ofJson second.toJson = .ok .none) ∧
      (answer = .ok () ∧ after.version = ⟨0⟩ ∧ after.aggregate.pending = [] ∧
        left.2.header ⟨"Counter-account"⟩ = some ⟨0⟩) ∧
      refused = .error (.unexpectedVersion ⟨"Counter-account"⟩ second Version.absent none) ∧
      same = stepped ∧ rest = state := by
  refine ⟨⟨rfl, rfl⟩, ⟨rfl, rfl, rfl, rfl⟩, rfl, rfl, rfl⟩

end Repository

end EventSourcing
