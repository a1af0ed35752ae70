import Mathlib.Data.List.Chain
import Warden.Proofs.Service.Alike
import Warden.Proofs.Service.Turns

/-!
The statuses that a run reports.

An input causes at most one report: an interrogation repeats the last status, a request to stop
announces it, an interrupt that failed takes it back. Two statuses stand before these reports, and
the last status, which ends them, behind.
-/

namespace Warden.Service

open Agent Log

namespace Loop

namespace Input

/-- The report that an input causes while the loop goes on, given the last status. -/
def report? (current : Status) : Input → Option Status
  | .event (.request .interrogate) _ => some current
  | .event (.request .stop) _ | .event (.request .shutdown) _ => some .stopPending
  | .reply (.interrupted (.error _)) => some .running
  | _ => none

def isInterrogation : Input → Bool
  | .event (.request .interrogate) _ => true
  | _ => false

def isStop : Input → Bool
  | .event (.request .stop) _ | .event (.request .shutdown) _ => true
  | _ => false

/-- The interrupt could not be delivered; the request to stop has failed, for now. -/
def isRefusal : Input → Bool
  | .reply (.interrupted (.error _)) => true
  | _ => false

lemma report_request {q : Request} (hq : q ≠ .interrogate) (current : Status) (x : Option Exit) :
    report? current (.event (.request q) x) = some .stopPending := by
  cases q with
  | interrogate => exact absurd rfl hq
  | stop | shutdown => rfl

lemma length_report (current : Status) (i : Input) : (i.report? current).toList.length =
    [i].countP isInterrogation + [i].countP isStop + [i].countP isRefusal := by
  rcases i with ⟨⟨_ | _ | _⟩ | _, _⟩ | _ | ⟨_ | _⟩ | _ | _ <;> rfl

end Input

/-- The reports that inputs cause while the loop goes on. -/
def reports (current : Status) : List Input → List Status
  | [] => []
  | i :: is =>
    match i.report? current with
    | none => reports current is
    | some s => s :: reports s is

/-- The last status, once the loop is over. -/
def Course.lastWord : Course → List Status
  | serving _ => []
  | ended o => [.stopped o.exitCode]

/-! ### Reports of turns -/

lemma statuses_farewell (stopping : Bool) (result : Except Fault Exit) :
    statuses (farewell stopping result) = [] := by
  unfold farewell
  rcases result with f | x
  · rfl
  · simp only
    split <;> rfl

lemma Turn.next_report {l l' : Loop} {i : Input} {es : List Effect}
    (t : l.Turn i (.serving l') es) :
    statuses es = (i.report? l.current).toList ∧
      l'.current = (i.report? l.current).getD l.current := by
  cases t with
  | ask _ hq =>
    rw [Input.report_request hq]
    exact ⟨rfl, rfl⟩
  | moot _ hq =>
    rw [Input.report_request hq]
    exact ⟨rfl, rfl⟩
  | _ => exact ⟨rfl, rfl⟩

lemma Turn.last_report {l : Loop} {i : Input} {o : Outcome} {es : List Effect}
    (t : l.Turn i (.ended o) es) :
    statuses es = [.stopped o.exitCode] ∧ i.report? l.current = none := by
  cases t with
  | part =>
    refine ⟨?_, rfl⟩
    rw [statuses_append, statuses_farewell]
    rfl
  | cutOff | fail => exact ⟨rfl, rfl⟩

lemma reports_cons (current : Status) (i : Input) (is : List Input) :
    reports current (i :: is) =
      (i.report? current).toList ++ reports ((i.report? current).getD current) is := by
  rw [reports]
  rcases i.report? current with _ | s <;> rfl

theorem Turns.statuses_eq {l : Loop} {is : List Input} {c : Course} {es : List Effect}
    (h : l.Turns is c es) : statuses es = reports l.current is ++ c.lastWord := by
  induction h with
  | nil => rfl
  | last t =>
    obtain ⟨hes, hi⟩ := t.last_report
    rw [hes, reports_cons, hi]
    rfl
  | @next l l' i is c es fs t ts ih =>
    obtain ⟨hes, hcur⟩ := t.next_report
    rw [statuses_append, ih, hes, hcur, reports_cons, List.append_assoc]

/-- Every interrogation, every request to stop and every refusal causes one report. -/
lemma length_reports (current : Status) (is : List Input) :
    (reports current is).length =
      is.countP Input.isInterrogation + is.countP Input.isStop + is.countP Input.isRefusal := by
  induction is generalizing current with
  | nil => rfl
  | cons i is ih =>
    have hcons (f : Input → Bool) : (i :: is).countP f = [i].countP f + is.countP f := by
      rw [← List.countP_append, List.singleton_append]
    have hi := Input.length_report current i
    rw [reports_cons, List.length_append, ih, hcons, hcons, hcons]
    omega

/-! ### States -/

/-- The service runs, or a stop is under way. -/
def IsUp (s : Status) : Prop := s = .running ∨ s = .stopPending

lemma IsUp.code {s : Status} (h : IsUp s) : s.code = .system 0 := by
  rcases h with rfl | rfl <;> rfl

lemma isUp_report {current s : Status} {i : Input} (h : IsUp current)
    (hs : i.report? current = some s) : IsUp s := by
  unfold Input.report? at hs
  split at hs
  · rwa [← Option.some.inj hs]
  · exact .inr (Option.some.inj hs).symm
  · exact .inr (Option.some.inj hs).symm
  · exact .inl (Option.some.inj hs).symm
  · cases hs

lemma isUp_reports {current : Status} (h : IsUp current) (is : List Input) :
    ∀ s ∈ reports current is, IsUp s := by
  induction is generalizing current with
  | nil =>
    intro s hs
    cases hs
  | cons i is ih =>
    intro s hs
    rw [reports] at hs
    rcases hi : i.report? current with _ | t <;> rw [hi] at hs
    · exact ih h s hs
    · have ht := isUp_report h hi
      rcases List.mem_cons.mp hs with rfl | hs
      · exact ht
      · exact ih ht s hs

/-- The changes that a manager sees from the first running status on. -/
def leadsTo (s t : Status) : Bool :=
  match s.state, t.state with
  | .running, .running | .running, .stopPending | .running, .stopped => true
  | .stopPending, .stopPending | .stopPending, .running | .stopPending, .stopped => true
  | _, _ => false

lemma isChain_leadsTo {s : Status} {ts : List Status} (hs : IsUp s) (hts : ∀ t ∈ ts, IsUp t)
    (c : Course) : (s :: (ts ++ c.lastWord)).IsChain (leadsTo · ·) := by
  induction ts generalizing s with
  | nil =>
    rcases c with l | o
    · exact List.isChain_singleton s
    · rcases hs with rfl | rfl <;> simp [Course.lastWord, leadsTo, Status.stopped,
        Status.running, Status.stopPending]
  | cons t ts ih =>
    have ht : IsUp t := hts t (List.mem_cons_self ..)
    rw [List.cons_append, List.isChain_cons_cons]
    refine ⟨?_, ih ht fun u hu => hts u (List.mem_cons_of_mem t hu)⟩
    rcases hs with rfl | rfl <;> rcases ht with rfl | rfl <;> rfl

/-! ### Back to running -/

lemma Turn.to_interrupting {l l' : Loop} {i : Input} {es : List Effect}
    (t : l.Turn i (.serving l') es) (h : l'.phase = .stopping .interrupting) :
    ∃ q, q ≠ .interrogate ∧ i = .event (.request q) none := by
  cases t with
  | @ask q _ hq => exact ⟨q, hq, rfl⟩
  | echo hl | await hl _ =>
    rw [hl] at h
    cases h
  | _ => cases h

lemma Turn.to_running {l l' : Loop} {i : Input} {es : List Effect}
    (t : l.Turn i (.serving l') es) (hcur : l.current = .stopPending)
    (h : i.report? l.current = some .running) :
    l.phase = .stopping .interrupting ∧ ∃ f, i = .reply (.interrupted (.error f)) := by
  cases t with
  | @refuse f hl => exact ⟨hl, f, rfl⟩
  | echo =>
    have hrun : l.current = .running := Option.some.inj h
    rw [hcur] at hrun
    cases hrun
  | ask _ hq | moot _ hq =>
    rw [Input.report_request hq] at h
    cases h
  | _ => cases h

/-- A service is back to running only by a refusal, and only right after a request to stop; in a
phase other than the first this request may have come before the chain. -/
lemma Turns.revival {l : Loop} {is : List Input} {c : Course} {es : List Effect}
    (h : l.Turns is c es) {x y : List Status}
    (hxy : l.current :: statuses es = x ++ .stopPending :: .running :: y) :
    (x = [] ∧ l.phase = .stopping .interrupting ∧
      ∃ f after, is = .reply (.interrupted (.error f)) :: after) ∨
    ∃ before q f after, q ≠ .interrogate ∧
      is = before ++ .event (.request q) none :: .reply (.interrupted (.error f)) :: after ∧
      x = l.current :: reports l.current before := by
  induction h generalizing x with
  | nil =>
    have hlen := congrArg List.length hxy
    simp only [statuses, List.filterMap_nil, List.length_cons, List.length_append,
      List.length_nil] at hlen
    omega
  | last t =>
    rw [t.last_report.1] at hxy
    rcases x with _ | ⟨u, x⟩
    · simp [Status.stopped, Status.running] at hxy
    · have hlen := congrArg List.length hxy
      simp only [List.length_cons, List.length_append, List.length_nil] at hlen
      omega
  | @next l l' i is c es fs t ts ih =>
    obtain ⟨hes, hcur⟩ := t.next_report
    rw [statuses_append, hes] at hxy
    rcases hi : i.report? l.current with _ | s
    · -- no report, and the chain goes on from the same status
      rw [hi] at hxy hcur
      rw [Option.getD_none] at hcur
      rw [Option.toList_none, List.nil_append, ← hcur] at hxy
      rcases ih hxy with ⟨-, hp, -⟩ | ⟨before, q, f, after, hq, rfl, rfl⟩
      · obtain ⟨q, hq, rfl⟩ := t.to_interrupting hp
        rw [Input.report_request hq] at hi
        cases hi
      · refine .inr ⟨i :: before, q, f, after, hq, rfl, ?_⟩
        rw [reports_cons, hi, hcur]
        rfl
    · rw [hi] at hxy hcur
      rw [Option.getD_some] at hcur
      rcases x with _ | ⟨u, x⟩
      · -- the report itself is the one that takes the stop back
        simp only [Option.toList_some, List.singleton_append, List.nil_append,
          List.cons.injEq] at hxy
        obtain ⟨hpend, hrun, -⟩ := hxy
        rw [hrun] at hi
        obtain ⟨hp, f, rfl⟩ := t.to_running hpend hi
        exact .inl ⟨rfl, hp, f, is, rfl⟩
      · simp only [Option.toList_some, List.cons_append, List.cons.injEq] at hxy
        obtain ⟨rfl, htail⟩ := hxy
        rw [← hcur] at htail
        rcases ih htail with ⟨rfl, hp, f, after, rfl⟩ | ⟨before, q, f, after, hq, rfl, rfl⟩
        · obtain ⟨q, hq, rfl⟩ := t.to_interrupting hp
          exact .inr ⟨[], q, f, after, hq, rfl, rfl⟩
        · refine .inr ⟨i :: before, q, f, after, hq, rfl, ?_⟩
          rw [reports_cons, hi, hcur]
          rfl

end Loop

/-! ### The statuses of a run -/

lemma Run.statuses_of_not_started {σ : Type} (k : Sink σ) {s : Supervisor σ} {w : Surroundings}
    {e : SpawnError} (he : (s.start w).result = .error e) (as : List Act) :
    statuses ((Run.start k s w).1.run k as).trace = [.startPending] := by
  rw [← statuses_deeds, (run_advances k _ as).2, (of_not_started k he as).1, start_deeds, he]
  rfl

/-- A loop that serves goes on reporting from its last status. -/
lemma Run.statuses_of_serving {σ : Type} (k : Sink σ) {r : Run σ} {l : Loop}
    (h : r.course = .serving l) (as : List Act) : statuses (r.run k as).trace =
      statuses r.trace ++
        (Loop.reports l.current (r.inputs k as) ++ (r.run k as).course.lastWord) := by
  rw [← statuses_deeds, (run_advances k r as).2, h, ← deeds_append, statuses_deeds,
    statuses_append, (turns k h as).statuses_eq]

lemma Run.statuses_of_started {σ : Type} (k : Sink σ) {s : Supervisor σ} {w : Surroundings}
    {pid : Nat} (hpid : (s.start w).result = .ok pid) (as : List Act) :
    statuses ((Run.start k s w).1.run k as).trace = .startPending :: .running ::
      (Loop.reports .running ((Run.start k s w).1.inputs k as) ++
        ((Run.start k s w).1.run k as).course.lastWord) := by
  have hcourse : (Run.start k s w).1.course = .serving (.ofAgent pid s.policy) := by
    rw [start_course, hpid]
    rfl
  have hstart : statuses (Run.start k s w).1.trace = [.startPending, .running] := by
    rw [← statuses_deeds, start_deeds, hpid]
    rfl
  rw [statuses_of_serving k hcourse, hstart]
  rfl

lemma Run.lastWord_eq {σ : Type} (r : Run σ) :
    r.course.lastWord = (r.outcome?.map fun o => .stopped o.exitCode).toList := by
  rw [outcome_eq]
  rcases r.course with l | o <;> rfl

/-- **The statuses that a run reports, and what causes them.** A start that fails is announced, and
nothing more. Otherwise every interrogation, every request to stop and every refusal causes one
report, the last word follows when the run ends, and a service is back to running only right after
a request to stop that is refused. Stops and shutdowns may be exchanged. -/
theorem reported_statuses {σ : Type} (k : Sink σ) (s : Supervisor σ) (w : Surroundings)
    (as : List Act) :
    let r₀ := (Run.start k s w).1
    let r := r₀.run k as
    let taken := r₀.inputs k as
    let between := Loop.reports .running taken
    (∀ e, (s.start w).result = .error e →
      statuses r.trace = [.startPending] ∧ taken = [] ∧ r.outcome? = some .startFailed) ∧
    (∀ pid, (s.start w).result = .ok pid →
      r.outcome? = taken.getLast?.bind Loop.Input.outcome? ∧
      statuses r.trace = .startPending :: .running :: between ++
        (r.outcome?.map fun o => .stopped o.exitCode).toList ∧
      (∀ t ∈ between, t = .running ∨ t = .stopPending) ∧
      (∀ t ∈ .startPending :: .running :: between, t.code = .system 0) ∧
      (∀ o, r.outcome? = some o → (statuses r.trace).length =
        3 + taken.countP Loop.Input.isInterrogation + taken.countP Loop.Input.isStop +
          taken.countP Loop.Input.isRefusal) ∧
      (statuses r.trace).tail.IsChain (Loop.leadsTo · ·) ∧
      ∀ x y, statuses r.trace = x ++ .stopPending :: .running :: y →
        ∃ before q f after, q ≠ .interrogate ∧
          taken = before ++
            .event (.request q) none :: .reply (.interrupted (.error f)) :: after ∧
          x = .startPending :: .running :: Loop.reports .running before) ∧
    ∀ as', as'.map Act.asStop = as.map Act.asStop →
      statuses (r₀.run k as').trace = statuses r.trace := by
  intro r₀ r taken between
  refine ⟨fun e he => ?_, fun pid hpid => ?_, fun as' has => ?_⟩
  · obtain ⟨htaken, hcourse⟩ := Run.of_not_started k he as
    refine ⟨Run.statuses_of_not_started k he as, htaken, ?_⟩
    rw [Run.outcome_eq, hcourse]
    rfl
  · obtain ⟨es, hturns, -⟩ := Run.turns_of_started k hpid as
    have hes : statuses es = between ++ r.course.lastWord := hturns.statuses_eq
    have htrace : statuses r.trace =
        .startPending :: .running :: (between ++ r.course.lastWord) :=
      Run.statuses_of_started k hpid as
    have hup : ∀ t ∈ between, t = .running ∨ t = .stopPending :=
      Loop.isUp_reports (.inl rfl) taken
    have hlen : between.length = taken.countP Loop.Input.isInterrogation +
        taken.countP Loop.Input.isStop + taken.countP Loop.Input.isRefusal :=
      Loop.length_reports .running taken
    refine ⟨?_, ?_, hup, ?_, ?_, ?_, ?_⟩
    · rw [Run.outcome_eq]
      exact hturns.outcome
    · rw [htrace, Run.lastWord_eq]
      rfl
    · intro t ht
      rcases List.mem_cons.mp ht with rfl | ht
      · rfl
      · rcases List.mem_cons.mp ht with rfl | ht
        · rfl
        · exact Loop.IsUp.code (hup t ht)
    · intro o ho
      rw [htrace, Run.lastWord_eq, ho]
      simp only [List.length_cons, List.length_append, Option.map_some, Option.toList_some,
        List.length_nil]
      omega
    · rw [htrace, List.tail_cons]
      exact Loop.isChain_leadsTo (.inl rfl) hup r.course
    · intro x y hxy
      rw [htrace, ← hes] at hxy
      rcases x with _ | ⟨u, x⟩
      · cases hxy
      · obtain ⟨rfl, hxy'⟩ := List.cons.inj hxy
        rcases hturns.revival hxy' with ⟨-, hp, -⟩ | ⟨before, q, f, after, hq, htaken, rfl⟩
        · cases hp
        · exact ⟨before, q, f, after, hq, htaken, rfl⟩
  · have hdeeds := Run.deeds_of_exchanged k (r := r₀) rfl has
    rw [← statuses_deeds, hdeeds, statuses_deeds]

/-- A shutdown that is refused, an interrogation, and the end. -/
def refused : List Act :=
  [.request .shutdown, .receive, .interrupted (.error (.os 1)), .request .interrogate, .receive,
    .exit (.ok (.exited 0)), .announceLate, .receive]

theorem reported_statuses_refused :
    (unattached.start (silent 7)).result = .ok 7 ∧
    let r := (Run.start Memory.sink unattached (silent 7)).1.run Memory.sink refused
    r.outcome? = some .stopped ∧
      statuses r.trace =
        [.startPending, .running, .stopPending, .running, .running, .stopped .ok] ∧
      (statuses r.trace).length = 3 + 1 + 1 + 1 := by
  have hstart : (unattached.start (silent 7)).result = .ok 7 := rfl
  have htaken : (Run.start Memory.sink unattached (silent 7)).1.inputs Memory.sink refused =
      [.event (.request .shutdown) none, .reply (.interrupted (.error (.os 1))),
        .event (.request .interrogate) none,
        .event (.agentGone (.ok (.exited 0))) (some (.exited 0))] := rfl
  have h := (reported_statuses Memory.sink unattached (silent 7) refused).2.1 7 hstart
  simp only [htaken] at h
  obtain ⟨hout, htrace, -, -, hlen, -⟩ := h
  refine ⟨hstart, hout, ?_, hlen .stopped hout⟩
  rw [htrace, hout]
  rfl

end Warden.Service
