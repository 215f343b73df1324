import Workflow.Proofs.Session.Trace

/-!
# Waiting for a run

A wait polls a run and pauses between two polls. It ends with the first answer that decides it, a
refusal or the record of a run that has ended, and with the last attempt. So what it comes to can be
read off the answers: as many polls as it takes to the first that decides, if there are as many
attempts, one pause less, and the result that this answer stands for.

* `Decisive`                  an answer that ends a wait;
* `Server.Tells`              what the service answers, poll after poll;
* `poll_succ`                 one attempt as one step of the program;
* `run_poll_of_decisive`      answers that decide nothing, then one that does;
* `run_poll_of_pending`       as many answers that decide nothing as there are attempts;
* `wait_ends`                 both together, from the first attempt.
-/

namespace Workflow.Session

open Service

/-! ## what an answer decides -/

/-- an answer that ends a wait: a refusal, or the record of a run that has ended -/
def Decisive : Except Refusal RunRecord → Prop
  | .error _ => True
  | .ok record => record.status.isFinal = true

/-- the result of a wait that ends with this answer, if it does -/
def decided? (h : RunHandle) : Except Refusal RunRecord → Option (Result RunRecord)
  | .error t => some (.error (.refused t))
  | .ok record => verdict? h record

theorem verdict?_eq_none_iff {h : RunHandle} {record : RunRecord} :
    verdict? h record = none ↔ record.status.isFinal = false := by
  rw [verdict?]
  cases record.status <;> simp [RunStatus.isFinal]

theorem decided?_eq_none_iff {h : RunHandle} {a : Except Refusal RunRecord} :
    decided? h a = none ↔ ¬ Decisive a := by
  cases a with
  | error t => simp [decided?, Decisive]
  | ok record => rw [decided?, verdict?_eq_none_iff, Decisive, Bool.not_eq_true]

/-- one attempt: a poll, then the result, the end of the attempts, or a pause -/
theorem poll_succ (h : RunHandle) (o : WaitOptions) (left : Nat) :
    poll h o (left + 1) = .call (.describeRun h.arn) fun a =>
      match decided? h a with
      | some result => .done result
      | none => if left = 0 then poll h o left else .pause o.delay (poll h o left) := by
  rw [poll]
  show Program.call _ _ = _
  congr 1
  funext a
  cases a with
  | error t => rfl
  | ok record => rfl

/-! ## a run of a wait -/

variable {σ : Type}

/-- asked for the run again and again, the service gives these answers in these states -/
def Server.Tells (server : Server σ) (h : RunHandle) (answers : Nat → Except Refusal RunRecord)
    (states : Nat → σ) : Prop :=
  ∀ i, server.answer (.describeRun h.arn) (states i) = (answers i, states (i + 1))

/-- any service gives some answers, from any state -/
theorem Server.exists_tells (server : Server σ) (h : RunHandle) (s : σ) :
    ∃ answers states, states 0 = s ∧ server.Tells h answers states :=
  let states : Nat → σ := Nat.rec s fun _ t => (server.answer (.describeRun h.arn) t).2
  ⟨fun i => (server.answer (.describeRun h.arn) (states i)).1, states, rfl, fun _ => rfl⟩

/-- a service with these answers to polls, which refuses all else -/
def Server.telling (answers : Nat → Except Refusal RunRecord) : Server Nat where
  answer
    | .describeRun _, i => (answers i, i + 1)
    | _, i => (.error ⟨"UnknownOperation", ""⟩, i)

theorem Server.tells_telling (h : RunHandle) (answers : Nat → Except Refusal RunRecord) :
    (Server.telling answers).Tells h answers id := fun _ => rfl

/-- the polls that get the answers from `k` on, `n` of them -/
def polls (h : RunHandle) (answers : Nat → Except Refusal RunRecord) (k n : Nat) : List Event :=
  (List.range' k n).map fun i => .called (.describeRun h.arn) (answers i)

section

variable {server : Server σ} {h : RunHandle} {answers : Nat → Except Refusal RunRecord}
  {states : Nat → σ}

theorem run_poll_decided (tells : server.Tells h answers states) (o : WaitOptions) (left : Nat)
    {k : Nat} {result : Result RunRecord} (decided : decided? h (answers k) = some result) :
    (poll h o (left + 1)).run server (states k) = ⟨result, polls h answers k 1, states (k + 1)⟩ := by
  rw [poll_succ, Program.run, tells k]
  simp only [decided]
  rfl

theorem run_poll_last (tells : server.Tells h answers states) (o : WaitOptions) {k : Nat}
    (pending : ¬ Decisive (answers k)) : (poll h o 1).run server (states k) =
      ⟨.error (.stillRunning h.arn o.attempts), polls h answers k 1, states (k + 1)⟩ := by
  rw [poll_succ, Program.run, tells k]
  simp only [decided?_eq_none_iff.mpr pending]
  rfl

/-- a poll that decides nothing is followed by a pause and the other attempts -/
theorem run_poll_pending (tells : server.Tells h answers states) (o : WaitOptions) (left : Nat)
    {k : Nat} (pending : ¬ Decisive (answers k)) :
    (poll h o (left + 2)).run server (states k) =
      let rest := (poll h o (left + 1)).run server (states (k + 1))
      { rest with
        events := .called (.describeRun h.arn) (answers k) :: .paused o.delay :: rest.events } := by
  rw [poll_succ, Program.run, tells k]
  simp only [decided?_eq_none_iff.mpr pending]
  rfl

theorem run_poll_of_decisive (tells : server.Tells h answers states) {o : WaitOptions}
    {k m left : Nat} (hm : m < left) (pending : ∀ i, k ≤ i → i < k + m → ¬ Decisive (answers i))
    {result : Result RunRecord} (decided : decided? h (answers (k + m)) = some result) :
    (poll h o left).run server (states k) =
      ⟨result, (polls h answers k (m + 1)).intersperse (.paused o.delay), states (k + m + 1)⟩ := by
  induction m generalizing k left with
  | zero =>
    obtain ⟨left, rfl⟩ := Nat.exists_eq_add_one.mpr hm
    exact run_poll_decided tells o left decided
  | succ m ih =>
    obtain ⟨left, rfl⟩ := Nat.exists_eq_add_of_le' (show 2 ≤ left by omega)
    have first : ¬ Decisive (answers k) := pending k (by omega) (by omega)
    have next : k + 1 + m = k + (m + 1) := by omega
    rw [run_poll_pending tells o left first, ih (by omega)
      (fun i hk hi => pending i (by omega) (by omega)) (next ▸ decided), next]
    rfl

theorem run_poll_of_pending (tells : server.Tells h answers states) {o : WaitOptions}
    {k left : Nat} (pending : ∀ i, k ≤ i → i < k + left → ¬ Decisive (answers i)) :
    (poll h o left).run server (states k) = ⟨.error (.stillRunning h.arn o.attempts),
      (polls h answers k left).intersperse (.paused o.delay), states (k + left)⟩ := by
  induction left generalizing k with
  | zero => rfl
  | succ left ih =>
    have first : ¬ Decisive (answers k) := pending k (by omega) (by omega)
    cases left with
    | zero => exact run_poll_last tells o first
    | succ left =>
      have next : k + 1 + (left + 1) = k + (left + 1 + 1) := by omega
      rw [run_poll_pending tells o left first,
        ih fun i hk hi => pending i (by omega) (by omega), next]
      rfl

end

/-! ## polls and pauses counted -/

def Event.pause? : Event → Option Nat
  | .called _ _ => none
  | .paused n => some n

/-- the pauses in order -/
def Run.pauses {α : Type} (r : Run σ α) : List Nat := r.events.filterMap Event.pause?

theorem exchanges_polls (h : RunHandle) (answers : Nat → Except Refusal RunRecord) (delay k n : Nat) :
    exchanges ((polls h answers k n).intersperse (.paused delay)) =
      (List.range' k n).map fun i => ⟨.describeRun h.arn, answers i⟩ := by
  induction n generalizing k with
  | zero => rfl
  | succ n ih =>
    cases n with
    | zero => rfl
    | succ n =>
      show ⟨.describeRun h.arn, answers k⟩ ::
        exchanges ((polls h answers (k + 1) (n + 1)).intersperse (.paused delay)) = _
      rw [ih]
      rfl

theorem pauses_polls (h : RunHandle) (answers : Nat → Except Refusal RunRecord) (delay k n : Nat) :
    ((polls h answers k n).intersperse (.paused delay)).filterMap Event.pause? =
      List.replicate (n - 1) delay := by
  induction n generalizing k with
  | zero => rfl
  | succ n ih =>
    cases n with
    | zero => rfl
    | succ n =>
      show delay ::
        ((polls h answers (k + 1) (n + 1)).intersperse (.paused delay)).filterMap Event.pause? = _
      rw [ih]
      rfl

theorem calls_polls (h : RunHandle) (answers : Nat → Except Refusal RunRecord) (delay k n : Nat)
    {α : Type} (x : α) (s : σ) :
    Run.calls ⟨x, (polls h answers k n).intersperse (.paused delay), s⟩ =
      List.replicate n (.describeRun h.arn) := by
  rw [Run.calls_eq, exchanges_polls, List.map_map]
  show (List.range' k n).map (fun _ => Call.describeRun h.arn) = _
  rw [List.map_const', List.length_range']

/-- **How a wait ends.** If an answer decides it before the attempts are used up, there are polls up
to the first such answer and a pause between each two; the result is the record of a run that
succeeded, the status and the reason of one that failed or was stopped, or the refusal. Otherwise
there is a poll for each attempt and a pause between each two, and the run is reported as still
running. -/
theorem wait_ends {server : Server σ} {h : RunHandle} {answers : Nat → Except Refusal RunRecord}
    {states : Nat → σ} (tells : server.Tells h answers states) (o : WaitOptions)
    {run : Run σ (Result RunRecord)} (hrun : run = (wait h o).run server (states 0)) :
    (∀ k < o.attempts, (∀ i < k, ¬ Decisive (answers i)) → Decisive (answers k) →
      run.events = (polls h answers 0 (k + 1)).intersperse (.paused o.delay) ∧
        run.calls = List.replicate (k + 1) (.describeRun h.arn) ∧
        run.pauses = List.replicate k o.delay ∧
        (∀ t, answers k = .error t → run.result = .error (.refused t)) ∧
        ∀ record, answers k = .ok record →
          (record.status = .succeeded → run.result = .ok record) ∧
          (record.status = .failed ∨ record.status = .stopped →
            run.result = .error (.runEnded h.arn record.status
              (record.failureReason?.getD noReason)))) ∧
    ((∀ i < o.attempts, ¬ Decisive (answers i)) →
      run.events = (polls h answers 0 o.attempts).intersperse (.paused o.delay) ∧
        run.calls = List.replicate o.attempts (.describeRun h.arn) ∧
        run.pauses = List.replicate (o.attempts - 1) o.delay ∧
        run.result = .error (.stillRunning h.arn o.attempts)) := by
  refine ⟨?_, ?_⟩
  · intro k hk pending decisive
    obtain ⟨result, decided⟩ : ∃ result, decided? h (answers k) = some result :=
      Option.ne_none_iff_exists'.mp fun open_ => decided?_eq_none_iff.mp open_ decisive
    rw [wait, run_poll_of_decisive tells hk (fun i _ hi => pending i (by omega))
      (by rwa [Nat.zero_add])] at hrun
    subst hrun
    refine ⟨rfl, calls_polls h answers o.delay 0 (k + 1) _ _, pauses_polls h answers o.delay 0 (k + 1),
      ?_, ?_⟩
    · intro t ht
      rw [ht] at decided
      exact (Option.some.inj decided).symm
    · intro record hrecord
      rw [hrecord, decided?, verdict?] at decided
      refine ⟨?_, ?_⟩
      · intro status
        simpa [status] using decided.symm
      · rintro (status | status)
        · simpa [status] using decided.symm
        · simpa [status] using decided.symm
  · intro pending
    rw [wait, run_poll_of_pending tells fun i _ hi => pending i (by omega)] at hrun
    subst hrun
    exact ⟨rfl, calls_polls h answers o.delay 0 o.attempts _ _,
      pauses_polls h answers o.delay 0 o.attempts, rfl⟩

/-- a run that is stopped at the third poll -/
def stoppedAtThird (i : Nat) : Except Refusal RunRecord :=
  .ok ⟨"r", if i < 2 then .stopping else .stopped, none, none, none, none, none⟩

theorem wait_ends_stoppedAtThird :
    ((wait ⟨"r"⟩ ⟨5, 3⟩).run (.telling stoppedAtThird) 0).result =
        .error (.runEnded "r" .stopped "no failure reason reported") ∧
      ((wait ⟨"r"⟩ ⟨5, 3⟩).run (.telling stoppedAtThird) 0).pauses = [5, 5] ∧
      ((wait ⟨"r"⟩ ⟨5, 2⟩).run (.telling stoppedAtThird) 0).result =
        .error (.stillRunning "r" 2) ∧
      ((wait ⟨"r"⟩ ⟨5, 2⟩).run (.telling stoppedAtThird) 0).pauses = [5] ∧
      ((wait ⟨"r"⟩ ⟨5, 0⟩).run (.telling stoppedAtThird) 0).calls = [] := by
  have tells := Server.tells_telling ⟨"r"⟩ stoppedAtThird
  have pending : ∀ i < 2, ¬ Decisive (stoppedAtThird i) := by
    intro i hi
    simp [stoppedAtThird, Decisive, hi, RunStatus.isFinal]
  have third := (wait_ends tells ⟨5, 3⟩ rfl).1 2 (by decide) pending rfl
  have second := (wait_ends tells ⟨5, 2⟩ rfl).2 pending
  have none_made := (wait_ends tells ⟨5, 0⟩ rfl).2 nofun
  exact ⟨(third.2.2.2.2 _ rfl).2 (.inr rfl), third.2.2.1, second.2.2.2, second.2.2.1,
    none_made.2.1⟩

end Workflow.Session
