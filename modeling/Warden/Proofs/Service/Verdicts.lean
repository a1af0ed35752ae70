import Warden.Proofs.Service.Entries
import Warden.Proofs.Service.Reports

/-!
What requests to stop return, and what the loop remembers of it.

A request to stop ends with one input, which decides how it returns. Of all these verdicts a loop
that waits for the next event keeps two things: its flag says whether one of them was a success,
its last status whether the last one was. The two say the same until a request fails after
another one has succeeded; then the service is back to running, and the flag stays.
-/

namespace Warden.Service

open Agent Log

namespace Loop

/-- What the requests to stop return while the inputs are taken, in order. -/
def Course.verdicts : Course → List Input → List (Except StopError Unit)
  | _, [] => []
  | ended _, _ => []
  | serving l, i :: is => (l.returned? i).toList ++ (l.step i).1.verdicts is

/-- The verdict that an input brings, if it is taken. -/
def Input.verdict? (pid : Nat) (i : Input) : Option (Except StopError Unit) :=
  if i.relieves then some (.ok ()) else (i.stopError? pid).map .error

lemma Input.verdict_request_none (pid : Nat) (q : Request) :
    (Input.event (.request q) none).verdict? pid = none := by
  rw [verdict?, not_relieves_request]
  rfl

lemma Input.verdict_request_some (pid : Nat) {q : Request} (hq : q ≠ .interrogate) (x : Exit) :
    (Input.event (.request q) (some x)).verdict? pid = some (.ok ()) := by
  rw [verdict?, relieves_request hq]
  rfl

variable {l l' : Loop} {vs : List (Except StopError Unit)}

lemma Turn.returned {i : Input} {c : Course} {es : List Effect} (t : l.Turn i c es) :
    l.returned? i = i.verdict? l.pid := by
  cases t with
  | @ask q _ hq | @moot q _ _ hq =>
    cases q with
    | interrogate => exact absurd rfl hq
    | stop | shutdown => rfl
  | echo | part | cutOff => rfl
  | await hl hnow =>
    simp only [returned?, hl, Stop.step_early _ _ hnow]
    rfl
  | lose hl hnow =>
    simp only [returned?, hl, Stop.step_late _ _ hnow]
    rfl
  | interrupt hl | refuse hl | heed hl | kill hl | fail hl =>
    rw [returned?, hl]
    rfl

lemma Turns.verdicts_eq {is : List Input} {c : Course} {es : List Effect}
    (h : l.Turns is c es) :
    (Course.serving l).verdicts is = is.filterMap (Input.verdict? l.pid) := by
  induction h with
  | nil => rfl
  | @last l i o es t =>
    rw [Course.verdicts, t.step_eq, t.returned]
    rcases hv : i.verdict? l.pid with _ | v <;> simp [Course.verdicts, hv]
  | @next l l' i is c es fs t ts ih =>
    obtain ⟨-, -, hpid, -⟩ := t.next_entries
    rw [Course.verdicts, t.step_eq, t.returned, ih, hpid]
    rcases hv : i.verdict? l.pid with _ | v <;> simp [hv]

/-! ### The flag and the status -/

/-- The status of a loop that waits for the next event, by the verdicts so far. -/
def standing (vs : List (Except StopError Unit)) : Status :=
  match vs.getLast? with
  | some (.ok ()) => .stopPending
  | _ => .running

lemma standing_snoc_ok (vs : List (Except StopError Unit)) :
    standing (vs ++ [.ok ()]) = .stopPending := by
  rw [standing, List.getLast?_concat]

lemma standing_snoc_error (vs : List (Except StopError Unit)) (e : StopError) :
    standing (vs ++ [.error e]) = .running := by
  rw [standing, List.getLast?_concat]

/-- What a loop knows of the verdicts so far. -/
structure Remembers (l : Loop) (vs : List (Except StopError Unit)) : Prop where
  stopping : l.stopping = vs.any Except.isOk
  waiting : l.phase = .listening → l.current = standing vs
  busy : l.phase ≠ .listening → l.current = .stopPending

/-- A request to stop has succeeded. -/
lemma Remembers.relieved (hcur : l.current = .stopPending) :
    l.relieved.Remembers (vs ++ [.ok ()]) where
  stopping := by simp [Loop.relieved, Except.isOk, Except.toBool]
  waiting := fun _ => by rw [standing_snoc_ok]; exact hcur
  busy := fun h => absurd rfl h

/-- A request to stop goes on. -/
lemma Remembers.during (h : l.Remembers vs) (p : Stop.Phase) (hcur : l'.current = .stopPending)
    (hp : l'.phase = .stopping p) (hs : l'.stopping = l.stopping) : l'.Remembers vs where
  stopping := hs.trans h.stopping
  waiting := fun hl => by rw [hp] at hl; cases hl
  busy := fun _ => hcur

lemma Turn.remembers {i : Input} {es : List Effect} (t : l.Turn i (.serving l') es)
    (h : l.Remembers vs) : l'.Remembers (vs ++ (i.verdict? l.pid).toList) := by
  have hbusy {p : Stop.Phase} (hl : l.phase = .stopping p) : l.current = .stopPending :=
    h.busy (by rw [hl]; simp)
  cases t with
  | echo | await =>
    rw [Input.verdict?]
    exact (List.append_nil vs).symm ▸ h
  | ask =>
    rw [Input.verdict_request_none, Option.toList_none, List.append_nil]
    exact h.during .interrupting rfl rfl rfl
  | moot _ hq =>
    rw [Input.verdict_request_some _ hq]
    exact Remembers.relieved (l := { l with current := .stopPending }) rfl
  | interrupt hl =>
    exact (List.append_nil vs).symm ▸ h.during (.awaiting _) (hbusy hl) rfl rfl
  | lose hl =>
    exact (List.append_nil vs).symm ▸ h.during .killing (hbusy hl) rfl rfl
  | heed hl | kill hl => exact Remembers.relieved (hbusy hl)
  | refuse =>
    refine ⟨?_, fun _ => (standing_snoc_error vs _).symm, fun h => absurd rfl h⟩
    rw [List.any_append, h.stopping]
    exact (Bool.or_false _).symm

/-- A chain adds its verdicts to what the loop remembers. -/
lemma Turns.remembers {is : List Input} {c : Course} {es : List Effect} (h : l.Turns is c es)
    (hl : l.Remembers vs) (hc : c = .serving l') :
    l'.Remembers (vs ++ is.filterMap (Input.verdict? l.pid)) := by
  induction h generalizing vs with
  | nil =>
    cases hc
    simpa using hl
  | last => cases hc
  | @next l _ i is c es fs t ts ih =>
    obtain ⟨-, -, hpid, -⟩ := t.next_entries
    have hrest := ih (t.remembers hl) hc
    rw [hpid, List.append_assoc] at hrest
    rcases hv : i.verdict? l.pid with _ | v <;> simpa [hv] using hrest

/-- The last report is the status of the loop. -/
lemma Turns.getLast_reports {is : List Input} {c : Course} {es : List Effect}
    (h : l.Turns is c es) (hc : c = .serving l') :
    (l.current :: reports l.current is).getLast? = some l'.current := by
  induction h with
  | nil =>
    cases hc
    rfl
  | last => cases hc
  | @next l l₁ i is c es fs t ts ih =>
    have hcur := t.next_report.2
    have hrest := ih hc
    rw [reports_cons, ← hcur]
    rcases hi : i.report? l.current with _ | s
    · rw [hi, Option.getD_none] at hcur
      rw [hcur] at hrest ⊢
      exact hrest
    · rw [hi, Option.getD_some] at hcur
      rw [hcur] at hrest ⊢
      rw [Option.toList_some, List.singleton_append, List.getLast?_cons_cons]
      exact hrest

lemma standing_eq_stopPending (vs : List (Except StopError Unit)) :
    standing vs = .stopPending ↔ vs.getLast? = some (.ok ()) := by
  rcases hlast : vs.getLast? with _ | e | _ <;> simp [standing, hlast, Status.running,
    Status.stopPending]

lemma any_isOk (vs : List (Except StopError Unit)) :
    vs.any Except.isOk = true ↔ .ok () ∈ vs := by
  rw [List.any_eq_true]
  refine ⟨fun ⟨v, hv, hok⟩ => ?_, fun h => ⟨.ok (), h, rfl⟩⟩
  rcases v with e | _
  · cases hok
  · exact hv

/-- A success and the last verdict tell the same story unless the last verdict is a failure. -/
lemma ok_mem_iff_getLast (vs : List (Except StopError Unit)) :
    (.ok () ∈ vs ↔ vs.getLast? = some (.ok ())) ↔
      ¬(.ok () ∈ vs ∧ ∃ e, vs.getLast? = some (.error e)) := by
  rcases hlast : vs.getLast? with _ | e | _
  · rw [List.getLast?_eq_none_iff.mp hlast]
    simp
  · simp
  · have hmem : .ok () ∈ vs := List.mem_of_getLast? hlast
    simp [hmem]

end Loop

lemma Run.remembers {σ : Type} (k : Sink σ) {s : Supervisor σ} {w : Surroundings}
    {as : List Act} {l : Loop} (hl : ((Run.start k s w).1.run k as).course = .serving l) :
    let taken := (Run.start k s w).1.inputs k as
    l.Remembers ((Run.start k s w).1.course.verdicts taken) ∧
      (statuses ((Run.start k s w).1.run k as).trace).getLast? = some l.current := by
  intro taken
  rcases hres : (s.start w).result with e | pid
  · rw [(Run.of_not_started k hres as).2] at hl
    cases hl
  · have hcourse : (Run.start k s w).1.course = .serving (.ofAgent pid s.policy) := by
      rw [Run.start_course, hres]
      rfl
    obtain ⟨es, hturns, -⟩ := Run.turns_of_started k hres as
    have hfresh : (Loop.ofAgent pid s.policy).Remembers [] :=
      ⟨rfl, fun _ => rfl, fun h => absurd rfl h⟩
    refine ⟨?_, ?_⟩
    · rw [hcourse, hturns.verdicts_eq]
      exact hturns.remembers hfresh hl
    · rw [Run.statuses_of_started k hres as, hl, Loop.Course.lastWord, List.append_nil,
        List.getLast?_cons_cons]
      exact hturns.getLast_reports hl

/-- **The flag of a loop that waits for the next event says whether the service is stopping,
unless a request to stop has failed after another one had succeeded.** The flag stands for a
success, the status for the last verdict, and the flag alone decides whether a failed exit is
recorded. -/
theorem flag_agrees_iff {σ : Type} (k : Sink σ) (s : Supervisor σ) (w : Surroundings)
    (as : List Act) (l : Loop) :
    let r₀ := (Run.start k s w).1
    let r := r₀.run k as
    let vs := r₀.course.verdicts (r₀.inputs k as)
    r.course = .serving l → l.phase = .listening →
      ((l.stopping = true ↔ (statuses r.trace).getLast? = some .stopPending) ↔
        ¬(.ok () ∈ vs ∧ ∃ e, vs.getLast? = some (.error e))) ∧
      (l.stopping = true ↔ .ok () ∈ vs) ∧
      (statuses r.trace).getLast? = some (Loop.standing vs) ∧
      ∀ x seen, x.success = false →
        (entries (l.step (.event (.agentGone (.ok x)) seen)).2 = [Loop.crash x] ↔
          .ok () ∉ vs) := by
  intro r₀ r vs hl hp
  obtain ⟨hrem, hlast⟩ := Run.remembers k hl
  have hflag : l.stopping = true ↔ .ok () ∈ vs := by
    rw [hrem.stopping]
    exact Loop.any_isOk vs
  have hstatus : (statuses r.trace).getLast? = some (Loop.standing vs) :=
    hlast.trans (congrArg some (hrem.waiting hp))
  refine ⟨?_, hflag, hstatus, fun x seen hx => ?_⟩
  · rw [hflag, hstatus, Option.some_inj, Loop.standing_eq_stopPending]
    exact Loop.ok_mem_iff_getLast vs
  · have hfinished : entries (Loop.finished .stopped) = [] := rfl
    rw [(Loop.Turn.part hp).step_eq, entries_append, Loop.farewell_failure hx, hfinished, ← hflag]
    cases l.stopping <;> simp

/-- A stop that ends in a kill, and one that is refused. -/
def relapse : List Act :=
  [.request .stop, .receive, .interrupted (.ok 0), .look StopPolicy.default.timeout.nanos,
    .killed (.ok ()), .request .stop, .receive, .interrupted (.error (.os 1))]

/-- The loop that waits after these stops. -/
def relapsed : Loop := ⟨7, .default, .listening, .running, true⟩

theorem flag_agrees_iff_relapse :
    let r₀ := (Run.start Memory.sink unattached (silent 7)).1
    let r := r₀.run Memory.sink relapse
    let vs := r₀.course.verdicts (r₀.inputs Memory.sink relapse)
    r.course = .serving relapsed ∧ relapsed.phase = .listening ∧
      vs = [.ok (), .error (.interrupt 7 (.os 1))] ∧
      (relapsed.stopping = true ↔ .ok () ∈ vs) ∧
      (statuses r.trace).getLast? = some .running := by
  have hcourse : ((Run.start Memory.sink unattached (silent 7)).1.run Memory.sink
      relapse).course = .serving relapsed := rfl
  obtain ⟨-, hflag, hstatus, -⟩ :=
    flag_agrees_iff Memory.sink unattached (silent 7) relapse relapsed hcourse rfl
  exact ⟨hcourse, rfl, rfl, hflag, hstatus⟩

/-- The service is back to running, the flag is still up, and a crash goes unrecorded. -/
theorem flag_outlasts_stop :
    let r := (Run.start Memory.sink unattached (silent 7)).1.run Memory.sink relapse
    let r' := r.run Memory.sink [.exit (.ok (.exited 1)), .announceLate, .receive]
    r.course = .serving relapsed ∧ relapsed.phase = .listening ∧ relapsed.stopping = true ∧
      (statuses r.trace).getLast? = some .running ∧
      r'.outcome? = some .stopped ∧ Loop.crash (.exited 1) ∉ entries r'.trace := by
  have hentries : entries (((Run.start Memory.sink unattached (silent 7)).1.run Memory.sink
      relapse).run Memory.sink [.exit (.ok (.exited 1)), .announceLate, .receive]).trace =
      [Loop.complaint (.interrupt 7 (.os 1))] := rfl
  refine ⟨rfl, rfl, rfl, rfl, rfl, ?_⟩
  rw [hentries, List.mem_singleton]
  exact (Loop.complaint_ne_crash _ _).symm

end Warden.Service
