import EventSourcing.Proofs.Bureau
import EventSourcing.Proofs.Layouts

/-!
What a writer and its storage say to each other, whatever the storage answers. Rounds follow each
other: each submits one transaction and, after a conflict, looks for the initiator and reads the
header. The next round starts from the version that was read, and there are no more of them than the
retries that the settings allow.
-/

namespace EventSourcing

/-- A question that is put to a storage, and the answer to it. -/
inductive Exchange where
  | submit (transaction : Transaction) (answer : Except Error Outcome)
  | header (key : StreamKey) (answer : Except Error (Option Version))
  | initiator (key : StreamKey) (initiator : Uuid) (answer : Except Error Bool)
  | records (key : StreamKey) (answer : Except Error (List Record))

namespace Exchange

/-- The error that was answered. -/
def error? : Exchange → Option Error
  | .submit _ (.error error) | .header _ (.error error) => some error
  | .initiator _ _ (.error error) | .records _ (.error error) => some error
  | _ => none

def submitted? : Exchange → Option Transaction
  | .submit transaction _ => some transaction
  | _ => none

/-- The transactions that were submitted, the earliest first. -/
def submits (said : List Exchange) : List Transaction :=
  said.filterMap submitted?

@[simp] theorem submits_append (said more : List Exchange) :
    submits (said ++ more) = submits said ++ submits more :=
  List.filterMap_append

end Exchange

variable {σ : Type}

/-- A storage that notes down what it is asked and what it answers. -/
def Backend.heard (backend : Backend σ) : Backend (σ × List Exchange) where
  submit transaction state :=
    let (answer, after) := backend.submit transaction state.1
    (answer, after, state.2 ++ [.submit transaction answer])
  readHeader key state :=
    let (answer, after) := backend.readHeader key state.1
    (answer, after, state.2 ++ [.header key answer])
  containsInitiator key initiator state :=
    let (answer, after) := backend.containsInitiator key initiator state.1
    (answer, after, state.2 ++ [.initiator key initiator answer])
  readRecords key state :=
    let (answer, after) := backend.readRecords key state.1
    (answer, after, state.2 ++ [.records key answer])

namespace Writer

theorem step_heard (backend : Backend σ) (writer : Writer) (planner : Planner) (state : σ)
    (said : List Exchange) :
    let heard := writer.step backend.heard planner (state, said)
    (heard.1, heard.2.1, heard.2.2.1) = writer.step backend planner state := by
  cases phase : writer.phase with
  | planning baseline =>
    cases made : planner.plan writer.write baseline <;> simp only [step, phase, made]
  | _ => simp only [step, phase, Backend.heard]

theorem run_heard (backend : Backend σ) (fuel : Nat) (writer : Writer) (planner : Planner)
    (state : σ) (said : List Exchange) :
    let heard := writer.run backend.heard fuel planner (state, said)
    (heard.1, heard.2.1, heard.2.2.1) = writer.run backend fuel planner state := by
  induction fuel generalizing writer planner state said with
  | zero => rfl
  | succ fuel ih =>
    have same := writer.step_heard backend planner state said
    rw [run_succ, run_succ, ← same]
    exact ih _ _ _ _

end Writer

/-- Noting down changes nothing. -/
theorem Backend.write_heard (backend : Backend σ) (planner : Planner) (write : Write) (state : σ) :
    let heard := backend.heard.write planner write (state, [])
    (⟨heard.result, heard.committed, heard.planner, heard.state.1⟩ : Written σ) =
      backend.write planner write state := by
  intro heard
  let start := Writer.start write planner.settings.retryLimit
  obtain ⟨done, planned, left⟩ := backend.heard.write_eq planner write (state, [])
  have same := start.run_heard backend start.stepsLeft planner state []
  rw [backend.write_of_run rfl same.symm done, ← planned, ← left]

namespace Writer

/-- What is said when the initiator is looked for in vain. One that is nil is not looked for. -/
def unfound (write : Write) : List Exchange :=
  if write.origin.initiator = Uuid.nil then []
  else [.initiator write.stream write.origin.initiator (.ok false)]

/-- What is said in a round that is refused. -/
def refusal (write : Write) (transaction : Transaction) (actual : Option Version) :
    List Exchange :=
  .submit transaction (.ok .conflict) :: unfound write ++ [.header write.stream (.ok actual)]

variable {settings : StoreSettings} {write : Write} {baseline : Version} {retries : Nat}
  {said round : List Exchange} {transaction : Transaction} {result : Except Error Version}
  {committed : Option Transaction}

/-- So many rounds that were refused, and the version from which the next one starts. -/
inductive Refused (settings : StoreSettings) (write : Write) :
    Version → Nat → List Exchange → Prop where
  | never : Refused settings write write.retrieved 0 []
  | again {baseline next : Version} {retries : Nat} {said : List Exchange}
      {transaction : Transaction} (before : Refused settings write baseline retries said)
      (planned : Planned settings write baseline transaction) (anywhere : write.expected = .any)
      (allowed : retries < settings.retryLimit) :
      Refused settings write next (retries + 1) (said ++ refusal write transaction (some next))

/-- What is said in the last round, and what comes of it. -/
inductive Concludes (settings : StoreSettings) (write : Write) (retries : Nat)
    (transaction : Transaction) :
    Except Error Version → Option Transaction → List Exchange → Prop where
  | commits :
      Concludes settings write retries transaction (.ok transaction.newVersion) (some transaction)
        [.submit transaction (.ok .committed)]
  | repeats {header : Option Version} (known : write.origin.initiator ≠ Uuid.nil) :
      Concludes settings write retries transaction (.ok (header.getD Version.absent)) none
        [.submit transaction (.ok .conflict),
          .initiator write.stream write.origin.initiator (.ok true),
          .header write.stream (.ok header)]
  | conflicts {actual : Option Version}
      (last : write.expected ≠ .any ∨ actual = none ∨ retries = settings.retryLimit) :
      Concludes settings write retries transaction
        (.error (.unexpectedVersion write.stream write.expected write.retrieved actual)) none
        (refusal write transaction actual)
  | submitFails {error : Error} :
      Concludes settings write retries transaction (.error error) none
        [.submit transaction (.error error)]
  | searchFails {error : Error} (known : write.origin.initiator ≠ Uuid.nil) :
      Concludes settings write retries transaction (.error error) none
        [.submit transaction (.ok .conflict),
          .initiator write.stream write.origin.initiator (.error error)]
  | confirmFails {error : Error} (known : write.origin.initiator ≠ Uuid.nil) :
      Concludes settings write retries transaction (.error error) none
        [.submit transaction (.ok .conflict),
          .initiator write.stream write.origin.initiator (.ok true),
          .header write.stream (.error error)]
  | measureFails {error : Error} :
      Concludes settings write retries transaction (.error error) none
        (.submit transaction (.ok .conflict) :: unfound write ++
          [.header write.stream (.error error)])

/-- What has been said when a writer has come to a phase. -/
inductive Heard (settings : StoreSettings) (write : Write) (retries : Nat) :
    Phase → List Exchange → Prop where
  | plans {baseline : Version} {said : List Exchange}
      (refused : Refused settings write baseline retries said) :
      Heard settings write retries (.planning baseline) said
  | submits {baseline : Version} {said : List Exchange} {transaction : Transaction}
      (refused : Refused settings write baseline retries said)
      (planned : Planned settings write baseline transaction) :
      Heard settings write retries (.submitting transaction) said
  | searches {baseline : Version} {said : List Exchange} {transaction : Transaction}
      (refused : Refused settings write baseline retries said)
      (planned : Planned settings write baseline transaction)
      (known : write.origin.initiator ≠ Uuid.nil) :
      Heard settings write retries .searching (said ++ [.submit transaction (.ok .conflict)])
  | confirms {baseline : Version} {said : List Exchange} {transaction : Transaction}
      (refused : Refused settings write baseline retries said)
      (planned : Planned settings write baseline transaction)
      (known : write.origin.initiator ≠ Uuid.nil) :
      Heard settings write retries .confirming
        (said ++ [.submit transaction (.ok .conflict),
          .initiator write.stream write.origin.initiator (.ok true)])
  | measures {baseline : Version} {said : List Exchange} {transaction : Transaction}
      (refused : Refused settings write baseline retries said)
      (planned : Planned settings write baseline transaction) :
      Heard settings write retries .measuring
        (said ++ .submit transaction (.ok .conflict) :: unfound write)
  | misfits {error : Error} (misfit : settings.layoutFor write.events.length = .error error) :
      Heard settings write retries (.finished (.error error) none) []
  | concludes {baseline : Version} {said round : List Exchange} {transaction : Transaction}
      {result : Except Error Version} {committed : Option Transaction}
      (refused : Refused settings write baseline retries said)
      (planned : Planned settings write baseline transaction)
      (concludes : Concludes settings write retries transaction result committed round) :
      Heard settings write retries (.finished result committed) (said ++ round)

namespace Refused

theorem bounded (refused : Refused settings write baseline retries said) :
    retries ≤ settings.retryLimit := by
  cases refused with
  | never => exact Nat.zero_le _
  | again before planned anywhere allowed => exact allowed

theorem anywhere (refused : Refused settings write baseline retries said) (some : 0 < retries) :
    write.expected = .any := by
  cases refused with
  | never => exact absurd some (Nat.lt_irrefl 0)
  | again before planned anywhere allowed => exact anywhere

/-- Whether a write fits shows in its first round. -/
theorem eq_nil_of_misfit (refused : Refused settings write baseline retries said) {error : Error}
    (misfit : settings.layoutFor write.events.length = .error error) : said = [] := by
  cases refused with
  | never => rfl
  | again before planned anywhere allowed =>
    obtain ⟨planner, layout, -, fits, -⟩ := planned
    cases fits.symm.trans misfit

end Refused

/-- A writer keeps what it writes and how often it may do so. -/
theorem step_keeps (backend : Backend σ) (writer : Writer) (planner : Planner) (state : σ) :
    let next := writer.step backend planner state
    next.1.write = writer.write ∧ next.1.retryLimit = writer.retryLimit ∧
      next.2.1.settings = planner.settings := by
  obtain ⟨write, limit, phase, retries⟩ := writer
  cases phase with
  | planning baseline =>
    cases made : planner.plan write baseline with
    | error error =>
      simp only [step, made, and_true]
      exact ⟨rfl, rfl⟩
    | ok both =>
      simp only [step, made]
      exact ⟨rfl, rfl, (Planner.planned_of_plan made).2⟩
  | submitting transaction =>
    simp only [step, submitted, and_true]
    split
    · exact ⟨rfl, rfl⟩
    · split <;> exact ⟨rfl, rfl⟩
    · exact ⟨rfl, rfl⟩
  | searching =>
    simp only [step, searched, and_true]
    split <;> exact ⟨rfl, rfl⟩
  | confirming =>
    simp only [step, confirmed, and_true]
    split <;> exact ⟨rfl, rfl⟩
  | measuring =>
    simp only [step, measured, and_true]
    split
    · split
      · split <;> exact ⟨rfl, rfl⟩
      · exact ⟨rfl, rfl⟩
    · exact ⟨rfl, rfl⟩
  | finished result committed => exact ⟨rfl, rfl, rfl⟩

theorem Heard.step {writer : Writer} {planner : Planner}
    (limit : writer.retryLimit = planner.settings.retryLimit)
    (heard : Heard planner.settings writer.write writer.retries writer.phase said)
    (backend : Backend σ) (state : σ) :
    let next := writer.step backend.heard planner (state, said)
    Heard planner.settings writer.write next.1.retries next.1.phase next.2.2.2 := by
  obtain ⟨write, retryLimit, phase, retries⟩ := writer
  dsimp only at limit heard
  subst limit
  cases heard with
  | @plans baseline _ refused =>
    cases made : planner.plan write baseline with
    | error error =>
      have misfit := Planner.misfit_of_plan made
      simp only [Writer.step, made, refused.eq_nil_of_misfit misfit]
      exact .misfits misfit
    | ok both =>
      simp only [Writer.step, made]
      exact .submits refused (Planner.planned_of_plan made).1
  | submits refused planned =>
    simp only [Writer.step, Backend.heard]
    rcases (backend.submit _ state).1 with error | _ | _
    · exact .concludes refused planned .submitFails
    · exact .concludes refused planned .commits
    · by_cases unknown : write.origin.initiator = Uuid.nil
      · have heard := Heard.measures refused planned
        rw [unfound, if_pos unknown] at heard
        simp only [submitted, if_pos unknown]
        exact heard
      · simp only [submitted, if_neg unknown]
        exact .searches refused planned unknown
  | searches refused planned known =>
    simp only [Writer.step, Backend.heard, List.append_assoc]
    rcases (backend.containsInitiator _ _ state).1 with error | _ | _
    · exact .concludes refused planned (.searchFails known)
    · have heard := Heard.measures refused planned
      rw [unfound, if_neg known] at heard
      exact heard
    · exact .confirms refused planned known
  | confirms refused planned known =>
    simp only [Writer.step, Backend.heard, List.append_assoc]
    rcases (backend.readHeader _ state).1 with error | header
    · exact .concludes refused planned (.confirmFails known)
    · exact .concludes refused planned (.repeats known)
  | measures refused planned =>
    simp only [Writer.step, Backend.heard, List.append_assoc]
    rcases (backend.readHeader _ state).1 with error | actual
    · exact .concludes refused planned .measureFails
    · simp only [measured]
      split
      · split
        · exact .plans (.again refused planned ‹_› ‹_›)
        · have last := Nat.le_antisymm refused.bounded (Nat.not_lt.mp ‹_›)
          exact .concludes refused planned (.conflicts (.inr (.inr last)))
      · rename_i actual _ _ final
        refine .concludes refused planned (.conflicts ?_)
        by_cases anywhere : write.expected = .any
        · cases actual with
          | none => exact .inr (.inl rfl)
          | some version => exact absurd rfl (final version anywhere)
        · exact .inl anywhere
  | misfits misfit => exact .misfits misfit
  | concludes refused planned concludes => exact .concludes refused planned concludes

theorem Heard.run {writer : Writer} {planner : Planner}
    (limit : writer.retryLimit = planner.settings.retryLimit)
    (heard : Heard planner.settings writer.write writer.retries writer.phase said)
    (backend : Backend σ) (fuel : Nat) (state : σ) :
    let last := writer.run backend.heard fuel planner (state, said)
    Heard planner.settings writer.write last.1.retries last.1.phase last.2.2.2 := by
  induction fuel generalizing writer planner state said with
  | zero => exact heard
  | succ fuel ih =>
    obtain ⟨write, still, settings⟩ := writer.step_keeps backend.heard planner (state, said)
    have next := heard.step limit backend state
    rw [run_succ, ← write, ← settings]
    rw [← write, ← settings] at next
    exact ih (still.trans (limit.trans (congrArg _ settings.symm))) next _

/-- Whether a round that begins after all this starts from a version: from that of the write if
nothing was said before, or from the header that was read last. -/
def StartsFrom (write : Write) (said : List Exchange) (baseline : Version) : Prop :=
  said = [] ∧ baseline = write.retrieved ∨
    ∃ earlier, said = earlier ++ [.header write.stream (.ok (some baseline))]

/-- Whether a round submits one transaction, before it says anything else. -/
def Opens (transaction : Transaction) (round : List Exchange) : Prop :=
  ∃ answer rest, round = .submit transaction answer :: rest ∧ Exchange.submits rest = []

theorem submits_unfound (write : Write) : Exchange.submits (unfound write) = [] := by
  unfold unfound
  split <;> rfl

theorem error?_unfound {call : Exchange} (member : call ∈ unfound write) : call.error? = none := by
  unfold unfound at member
  split at member
  · cases member
  · rw [List.mem_singleton.mp member]
    rfl

theorem opens_refusal (write : Write) (transaction : Transaction) (actual : Option Version) :
    Opens transaction (refusal write transaction actual) := by
  refine ⟨_, unfound write ++ [_], rfl, ?_⟩
  rw [Exchange.submits_append, submits_unfound]
  rfl

theorem Opens.submits_eq (opens : Opens transaction round) :
    Exchange.submits round = [transaction] := by
  obtain ⟨answer, rest, rfl, none⟩ := opens
  exact congrArg _ none

/-- A submit belongs to what was said before a round, or begins it. -/
theorem Opens.split (opens : Opens transaction round) {before after : List Exchange}
    {other : Transaction} {answer : Except Error Outcome}
    (whole : said ++ round = before ++ .submit other answer :: after) :
    (∃ more, said = before ++ .submit other answer :: more) ∨
      before = said ∧ other = transaction := by
  obtain ⟨reply, rest, rfl, none⟩ := opens
  rcases List.append_eq_append_iff.mp whole with ⟨gap, rfl, same⟩ | ⟨gap, rfl, same⟩
  · cases gap with
    | nil =>
      cases same
      exact .inr ⟨List.append_nil _, rfl⟩
    | cons first gap =>
      rw [List.cons_append, List.cons.injEq] at same
      rw [same.2, Exchange.submits_append] at none
      cases (List.append_eq_nil_iff.mp none).2
  · cases gap with
    | nil =>
      cases same
      exact .inr ⟨(List.append_nil _).symm, rfl⟩
    | cons first gap =>
      rw [List.cons_append, List.cons.injEq] at same
      exact .inl ⟨gap, by rw [same.1]⟩

namespace Refused

theorem length_submits (refused : Refused settings write baseline retries said) :
    (Exchange.submits said).length = retries := by
  induction refused with
  | never => rfl
  | @again _ _ retries said transaction before planned anywhere allowed ih =>
    rw [Exchange.submits_append, (opens_refusal _ _ _).submits_eq, List.length_append, ih]
    rfl

theorem startsFrom (refused : Refused settings write baseline retries said) :
    StartsFrom write said baseline := by
  cases refused with
  | never => exact .inl ⟨rfl, rfl⟩
  | again before planned anywhere allowed =>
    exact .inr ⟨_, (List.append_assoc _ _ _).symm⟩

theorem error?_eq_none (refused : Refused settings write baseline retries said) {call : Exchange}
    (member : call ∈ said) : call.error? = none := by
  induction refused with
  | never => cases member
  | again before planned anywhere allowed ih =>
    rcases List.mem_append.mp member with old | new
    · exact ih old
    · rw [refusal, List.cons_append, List.mem_cons, List.mem_append, List.mem_singleton] at new
      rcases new with rfl | inside | rfl
      · rfl
      · exact error?_unfound inside
      · rfl

/-- Each round is planned from where it starts. -/
theorem planned_of_submit (refused : Refused settings write baseline retries said)
    {before after : List Exchange} {other : Transaction} {answer : Except Error Outcome}
    (whole : said = before ++ .submit other answer :: after) :
    ∃ start, StartsFrom write before start ∧ Planned settings write start other := by
  induction refused generalizing after with
  | never => cases (List.append_eq_nil_iff.mp whole.symm).2
  | again earlier planned anywhere allowed ih =>
    rcases (opens_refusal _ _ _).split whole with ⟨more, inside⟩ | ⟨rfl, rfl⟩
    · exact ih inside
    · exact ⟨_, earlier.startsFrom, planned⟩

end Refused

namespace Concludes

theorem opens (concludes : Concludes settings write retries transaction result committed round) :
    Opens transaction round := by
  cases concludes with
  | conflicts last => exact opens_refusal _ _ _
  | measureFails =>
    refine ⟨_, unfound write ++ [_], rfl, ?_⟩
    rw [Exchange.submits_append, submits_unfound]
    rfl
  | _ => exact ⟨_, _, rfl, rfl⟩

/-- Only the last answer can be an error, and then it is the result. -/
theorem closes (concludes : Concludes settings write retries transaction result committed round) :
    ∃ opening last, round = opening ++ [last] ∧ (∀ call ∈ opening, call.error? = none) ∧
      ∀ error, last.error? = some error → result = .error error := by
  have quiet : ∀ call ∈ Exchange.submit transaction (.ok .conflict) :: unfound write,
      call.error? = none :=
    List.forall_mem_cons.mpr ⟨rfl, fun call inside => error?_unfound inside⟩
  cases concludes with
  | commits => exact ⟨[], _, rfl, by simp, fun _ failed => by cases failed⟩
  | repeats known =>
    exact ⟨[_, _], _, rfl, by simp [Exchange.error?], fun _ failed => by cases failed⟩
  | conflicts last => exact ⟨_, _, rfl, quiet, fun _ failed => by cases failed⟩
  | submitFails =>
    exact ⟨[], _, rfl, by simp, fun _ failed => congrArg _ (Option.some.inj failed)⟩
  | searchFails known =>
    exact ⟨[_], _, rfl, by simp [Exchange.error?],
      fun _ failed => congrArg _ (Option.some.inj failed)⟩
  | confirmFails known =>
    exact ⟨[_, _], _, rfl, by simp [Exchange.error?],
      fun _ failed => congrArg _ (Option.some.inj failed)⟩
  | measureFails =>
    exact ⟨_, _, rfl, quiet, fun _ failed => congrArg _ (Option.some.inj failed)⟩

end Concludes

/-- The words of a write with a storage, and what they say about its end. -/
structure Conversation (settings : StoreSettings) (write : Write) (result : Except Error Version)
    (committed : Option Transaction) (said : List Exchange) : Prop where
  /-- A write that cannot be planned says nothing. -/
  misfit : ∀ error, settings.layoutFor write.events.length = .error error →
    said = [] ∧ result = .error error
  few : (Exchange.submits said).length ≤ settings.retryLimit + 1
  begun : settings.Fits write.events.length → 0 < (Exchange.submits said).length
  once : settings.Fits write.events.length → write.expected ≠ .any →
    (Exchange.submits said).length = 1
  planned : ∀ before transaction answer after,
    said = before ++ .submit transaction answer :: after →
      ∃ baseline, StartsFrom write before baseline ∧ Planned settings write baseline transaction
  committed_iff : ∀ transaction, committed = some transaction ↔
    ∃ before, said = before ++ [.submit transaction (.ok .committed)]
  ok_iff : ∀ version, result = .ok version ↔
    (∃ before transaction, said = before ++ [.submit transaction (.ok .committed)] ∧
        version = transaction.newVersion) ∨
      write.origin.initiator ≠ Uuid.nil ∧
        ∃ before transaction header,
          said = before ++ [.submit transaction (.ok .conflict),
              .initiator write.stream write.origin.initiator (.ok true),
              .header write.stream (.ok header)] ∧
            version = header.getD Version.absent
  error_iff : ∀ error, result = .error error ↔
    settings.layoutFor write.events.length = .error error ∨
      (∃ before last, said = before ++ [last] ∧ last.error? = some error) ∨
      ∃ before transaction actual, said = before ++ refusal write transaction actual ∧
        (write.expected ≠ .any ∨ actual = none ∨
          (Exchange.submits said).length = settings.retryLimit + 1) ∧
        error = .unexpectedVersion write.stream write.expected write.retrieved actual
  /-- After an error nothing is asked. -/
  silent : ∀ before call after error, said = before ++ call :: after →
    call.error? = some error → after = [] ∧ result = .error error

/-- A commit ends a write, and nothing else does that is said to be one. -/
theorem Concludes.committed_iff
    (concludes : Concludes settings write retries transaction result committed round)
    (said : List Exchange) (other : Transaction) :
    committed = some other ↔
      ∃ before, said ++ round = before ++ [.submit other (.ok .committed)] := by
  constructor
  · rintro rfl
    cases concludes with
    | commits => exact ⟨said, rfl⟩
  · rintro ⟨before, whole⟩
    have back := congrArg List.reverse whole
    cases concludes with
    | commits =>
      obtain ⟨-, same⟩ := List.append_inj' whole rfl
      cases same
      rfl
    | _ => simp [refusal] at back

theorem Concludes.ok_iff
    (concludes : Concludes settings write retries transaction result committed round)
    (said : List Exchange) (version : Version) :
    result = .ok version ↔
      (∃ before other, said ++ round = before ++ [.submit other (.ok .committed)] ∧
          version = other.newVersion) ∨
        write.origin.initiator ≠ Uuid.nil ∧
          ∃ before other header,
            said ++ round = before ++ [.submit other (.ok .conflict),
                .initiator write.stream write.origin.initiator (.ok true),
                .header write.stream (.ok header)] ∧
              version = header.getD Version.absent := by
  constructor
  · rintro rfl
    cases concludes with
    | commits => exact .inl ⟨said, _, rfl, rfl⟩
    | repeats known => exact .inr ⟨known, said, _, _, rfl, rfl⟩
  · rintro (⟨before, other, whole, rfl⟩ | ⟨known, before, other, header, whole, rfl⟩)
    · have back := congrArg List.reverse whole
      cases concludes with
      | commits =>
        obtain ⟨-, same⟩ := List.append_inj' whole rfl
        cases same
        rfl
      | _ => simp [refusal] at back
    · have back := congrArg List.reverse whole
      cases concludes with
      | repeats _ =>
        obtain ⟨-, same⟩ := List.append_inj' whole rfl
        cases same
        rfl
      | _ => simp [refusal, unfound, known] at back

/-- Where a refused round is the last one, its header is reported. -/
theorem Concludes.eq_unexpected
    (concludes : Concludes settings write retries transaction result committed round)
    {before : List Exchange} {other : Transaction} {actual : Option Version}
    (whole : said ++ round = before ++ refusal write other actual) :
    result =
      .error (.unexpectedVersion write.stream write.expected write.retrieved actual) := by
  have back := congrArg List.reverse whole
  cases concludes with
  | conflicts last =>
    rw [refusal, refusal, ← List.append_assoc, ← List.append_assoc] at whole
    obtain ⟨-, same⟩ := List.append_inj' whole rfl
    cases same
    rfl
  | repeats known => simp [refusal, unfound, known] at back
  | _ => simp [refusal] at back

theorem Concludes.conversation (refused : Refused settings write baseline retries said)
    (planned : Planned settings write baseline transaction)
    (concludes : Concludes settings write retries transaction result committed round) :
    Conversation settings write result committed (said ++ round) := by
  have counted : (Exchange.submits (said ++ round)).length = retries + 1 := by
    rw [Exchange.submits_append, concludes.opens.submits_eq, List.length_append,
      refused.length_submits]
    rfl
  have fits : settings.Fits write.events.length := by
    obtain ⟨planner, layout, -, fitting, -⟩ := planned
    exact ⟨layout, fitting⟩
  have silent : ∀ before call after error, said ++ round = before ++ call :: after →
      call.error? = some error → after = [] ∧ result = .error error := by
    intro before call after error whole failed
    obtain ⟨opening, last, rfl, quiet, ends⟩ := concludes.closes
    have before_last : ∀ other ∈ said ++ opening, other.error? = none := fun other member =>
      (List.mem_append.mp member).elim refused.error?_eq_none (quiet other)
    rw [← List.append_assoc] at whole
    rcases List.eq_nil_or_concat after with rfl | ⟨more, final, rfl⟩
    · obtain ⟨-, same⟩ := List.append_inj' whole rfl
      obtain rfl := List.singleton_inj.mp same
      exact ⟨rfl, ends error failed⟩
    · rw [List.concat_eq_append, ← List.cons_append, ← List.append_assoc] at whole
      obtain ⟨inside, -⟩ := List.append_inj' whole rfl
      have none := before_last call (inside ▸ List.mem_append_right _ List.mem_cons_self)
      cases none.symm.trans failed
  refine { misfit := ?misfit, few := ?few, begun := ?begun, once := ?once, planned := ?planned,
           committed_iff := ?committed, ok_iff := ?ok, error_iff := ?error, silent := silent }
  case misfit =>
    intro error misfit
    obtain ⟨layout, fitting⟩ := fits
    cases fitting.symm.trans misfit
  case few =>
    rw [counted]
    exact Nat.succ_le_succ refused.bounded
  case begun =>
    intro _
    rw [counted]
    exact Nat.succ_pos _
  case once =>
    intro _ fixed
    rw [counted]
    exact congrArg _ (Nat.eq_zero_of_not_pos fun again => fixed (refused.anywhere again))
  case planned =>
    intro before other answer after whole
    rcases concludes.opens.split whole with ⟨more, inside⟩ | ⟨rfl, rfl⟩
    · exact refused.planned_of_submit inside
    · exact ⟨_, refused.startsFrom, planned⟩
  case committed => exact concludes.committed_iff said
  case ok => exact concludes.ok_iff said
  case error =>
    intro error
    constructor
    · rintro rfl
      refine .inr ?_
      have parted (opening : List Exchange) (last : Exchange) :
          said ++ (opening ++ [last]) = said ++ opening ++ [last] :=
        (List.append_assoc _ _ _).symm
      cases concludes with
      | conflicts last =>
        refine .inr ⟨said, transaction, _, rfl, ?_, rfl⟩
        rw [counted]
        exact last.imp_right (Or.imp_right (congrArg Nat.succ))
      | submitFails => exact .inl ⟨_, _, parted [] _, rfl⟩
      | searchFails known => exact .inl ⟨_, _, parted [_] _, rfl⟩
      | confirmFails known => exact .inl ⟨_, _, parted [_, _] _, rfl⟩
      | measureFails => exact .inl ⟨_, _, parted (_ :: unfound write) _, rfl⟩
    · rintro (misfit | ⟨before, last, whole, failed⟩ | ⟨before, other, actual, whole, -, rfl⟩)
      · obtain ⟨layout, fitting⟩ := fits
        cases fitting.symm.trans misfit
      · exact (silent before last [] error whole failed).2
      · exact concludes.eq_unexpected whole

/-- What a finished writer has said. -/
theorem Heard.conversation
    (heard : Heard settings write retries (.finished result committed) said) :
    Conversation settings write result committed said := by
  cases heard with
  | concludes refused planned concludes => exact concludes.conversation refused planned
  | @misfits error misfit =>
    have nothing {before : List Exchange} {call : Exchange} {after : List Exchange} :
        [] ≠ before ++ call :: after := by simp
    have unfit : ¬settings.Fits write.events.length := by
      rintro ⟨layout, fitting⟩
      cases fitting.symm.trans misfit
    refine { misfit := ?_, few := Nat.zero_le _, begun := fun fits => absurd fits unfit,
             once := fun fits => absurd fits unfit,
             planned := fun _ _ _ _ whole => absurd whole nothing,
             committed_iff := ?_, ok_iff := ?_, error_iff := ?_,
             silent := fun _ _ _ _ whole => absurd whole nothing }
    · intro other same
      exact ⟨rfl, congrArg _ (Except.error.inj (misfit.symm.trans same))⟩
    · intro transaction
      constructor
      · intro made
        cases made
      · rintro ⟨before, whole⟩
        exact absurd whole nothing
    · intro version
      constructor
      · intro done
        cases done
      · rintro (⟨before, transaction, whole, -⟩ | ⟨-, before, transaction, header, whole, -⟩)
        · exact absurd whole nothing
        · exact absurd whole nothing
    · intro other
      constructor
      · intro same
        exact .inl (Except.error.inj same ▸ misfit)
      · rintro (same | ⟨before, last, whole, -⟩ | ⟨before, transaction, actual, whole, -⟩)
        · exact congrArg _ (Except.error.inj (misfit.symm.trans same))
        · exact absurd whole nothing
        · exact absurd whole nothing

end Writer

/-- A dispatcher is given each group that is published once. -/
theorem Bureau.dispatcher_publish (bureau : Bureau σ) (committed : Option (List StoredEvent)) :
    (bureau.publish committed).dispatcher =
      bureau.dispatcher.map fun dispatcher => committed.elim dispatcher dispatcher.publish := by
  obtain ⟨planner, storage, dispatcher, journal, published⟩ := bureau
  cases dispatcher <;> cases committed <;> rfl

/-- Whatever the storage answers, a write with events says no more than its rounds allow and ends as
the last of them says; what it commits is published once, and nothing else is. -/
theorem Bureau.write_conversation (backend : Backend σ) (bureau : Bureau σ) {write : Write}
    (filled : write.events ≠ []) :
    let written := backend.write bureau.planner write bureau.storage
    let heard := backend.heard.write bureau.planner write (bureau.storage, [])
    let after := bureau.write backend write
    (⟨heard.result, heard.committed, heard.planner, heard.state.1⟩ : Written σ) = written ∧
      Writer.Conversation bureau.planner.settings write written.result written.committed
        heard.state.2 ∧
      after.journal = bureau.journal ++ [.written write written.result] ∧
      after.dispatcher = bureau.dispatcher.map fun dispatcher =>
        written.committed.elim dispatcher fun transaction =>
          dispatcher.publish transaction.events := by
  intro written heard after
  have same := backend.write_heard bureau.planner write bureau.storage
  refine ⟨same, ?_, bureau.journal_write backend write, ?_⟩
  · let start := Writer.start write bureau.planner.settings.retryLimit
    have begun : Writer.Heard bureau.planner.settings start.write start.retries start.phase [] := by
      rw [Writer.phase_start_of_ne_nil filled]
      exact .plans .never
    obtain ⟨done, -, left⟩ := backend.heard.write_eq bureau.planner write (bureau.storage, [])
    have ran := begun.run rfl backend start.stepsLeft bureau.storage
    simp only [start, done, left] at ran
    have conversation := ran.conversation
    rwa [congrArg Written.result same, congrArg Written.committed same] at conversation
  · refine (dispatcher_publish _ _).trans ?_
    simp only [Option.elim_map]
    rfl

/-- A database that plans a write at any version twice. -/
def Bureau.patient : Planner := { Planner.plain with settings := { retryLimit := 1 } }

/-- A payment at any version, by somebody who has not read the account. -/
def Bureau.blindPayment : Write where
  stream := ⟨"account"⟩
  events := [⟨"Paid", .null⟩]
  retrieved := Version.absent
  expected := .any
  origin := {}

/-- A database with one such payment. -/
def Bureau.paid : Bureau Store := (opened patient {} (some desk)).write Store.backend blindPayment

/-- Such a payment after another is planned a second time. -/
theorem Bureau.blind_payment_conversation :
    let heard := Store.backend.heard.write paid.planner blindPayment (paid.storage, [])
    (Exchange.submits heard.state.2).length = 2 ∧
      ∃ before transaction, heard.state.2 = before ++ [.submit transaction (.ok .committed)] ∧
        transaction.newVersion = ⟨1⟩ ∧
        (paid.write Store.backend blindPayment).dispatcher =
          paid.dispatcher.map (·.publish transaction.events) := by
  obtain ⟨-, conversation, -, published⟩ :=
    write_conversation Store.backend paid (show blindPayment.events ≠ [] by decide)
  have done : (Store.backend.write paid.planner blindPayment paid.storage).result = .ok ⟨1⟩ := rfl
  refine ⟨rfl, ?_⟩
  rcases (conversation.ok_iff ⟨1⟩).mp done with ⟨before, transaction, said, reached⟩ | ⟨known, -⟩
  · refine ⟨before, transaction, said, reached.symm, ?_⟩
    rw [published, (conversation.committed_iff transaction).mpr ⟨before, said⟩]
    rfl
  · exact absurd rfl known

end EventSourcing
