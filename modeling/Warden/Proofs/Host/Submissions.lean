import Mathlib.Data.List.DropRight
import Warden.Host.Bridge
import Warden.Proofs.Service.Onlookers

/-!
What a manager is told.

A report says in the manager's words what one status says (`reportAt_conveys`), and of the statuses
before it only how many of them were pending: its checkpoint counts the pending reports in a row
that it ends (`checkpoint_row`). The manager's answers are no part of it. Of a run the manager is
told every status, and in the end that the service has stopped, also when the agent could not be
started.
-/

namespace Warden.Host

open Service Log

/-! ### The reports -/

/-- States by the manager's names for them. -/
inductive ManagerState.Names : ManagerState → State → Prop where
  | startPending : Names .startPending .startPending
  | running : Names .running .running
  | stopPending : Names .stopPending .stopPending
  | stopped : Names .stopped .stopped

/-- Codes as the manager writes them. -/
inductive ManagerCode.Writes : ManagerCode → ExitCode → Prop where
  | system (n : Nat) : Writes (.win32 n) (.system n)
  | specific (n : Nat) : Writes (.serviceSpecific n) (.specific n)

/-- What a report says of a service with a process of its own and the status `s`: the state, a
bit for each request that is accepted, and the code. -/
structure StatusReport.Conveys (t : StatusReport) (s : Status) : Prop where
  service : t.service = 16
  state : t.state.Names s.state
  controls : t.controls = (if s.accepts.stop then 1 else 0) + if s.accepts.shutdown then 4 else 0
  code : t.code.Writes s.code
  process : t.process = none

lemma managerControls_eq (a : Accepted) :
    managerControls a = (if a.stop then 1 else 0) + if a.shutdown then 4 else 0 := by
  obtain ⟨stop, shutdown⟩ := a
  cases stop <;> cases shutdown <;> decide

lemma reportAt_conveys (n : Nat) (s : Status) : (reportAt n s).Conveys s := by
  obtain ⟨state, accepts, code⟩ := s
  refine ⟨rfl, ?_, managerControls_eq accepts, ?_, rfl⟩
  · cases state with
    | startPending => exact .startPending
    | running => exact .running
    | stopPending => exact .stopPending
    | stopped => exact .stopped
  · cases code with
    | system n => exact .system n
    | specific n => exact .specific n

namespace StatusReport

def isPending (t : StatusReport) : Bool := t.state == .startPending || t.state == .stopPending

/-- The state, the controls and the code, which the status alone decides. -/
def words (t : StatusReport) : ManagerState × Nat × ManagerCode := (t.state, t.controls, t.code)

end StatusReport

lemma isPending_reportAt (n : Nat) (s : Status) : (reportAt n s).isPending = isPending s := by
  obtain ⟨state, accepts, code⟩ := s
  cases state <;> rfl

/-- The reports of statuses behind the checkpoint `n`. -/
def checkpointed (n : Nat) : List Status → List StatusReport
  | [] => []
  | s :: ss => reportAt (checkpoint n s) s :: checkpointed (checkpoint n s) ss

lemma submissionsFrom_report (n : Nat) (manager : Nat → Bool) (ss : List Status) :
    (submissionsFrom n manager ss).map (·.report) = checkpointed n ss := by
  induction ss generalizing n manager with
  | nil => rfl
  | cons s ss ih =>
    rw [submissionsFrom, List.map_cons, ih]
    rfl

/-- The manager answers the reports by number. -/
lemma submissionsFrom_taken (n : Nat) (manager : Nat → Bool) (ss : List Status) :
    (submissionsFrom n manager ss).map (·.taken) = (List.range ss.length).map manager := by
  induction ss generalizing n manager with
  | nil => rfl
  | cons s ss ih =>
    rw [submissionsFrom, List.map_cons, ih, List.length_cons, List.range_succ_eq_map,
      List.map_cons, List.map_map]
    rfl

lemma checkpointed_conveys (n : Nat) (ss : List Status) :
    List.Forall₂ StatusReport.Conveys (checkpointed n ss) ss := by
  induction ss generalizing n with
  | nil => exact .nil
  | cons s ss ih => exact .cons (reportAt_conveys _ s) (ih _)

lemma checkpointed_words (n : Nat) (ss : List Status) :
    (checkpointed n ss).map (·.words) = ss.map fun s => (reportAt 0 s).words := by
  induction ss generalizing n with
  | nil => rfl
  | cons s ss ih =>
    rw [checkpointed, List.map_cons, ih]
    rfl

lemma checkpointed_isPending (n : Nat) (ss : List Status) :
    (checkpointed n ss).map (·.isPending) = ss.map isPending := by
  induction ss generalizing n with
  | nil => rfl
  | cons s ss ih => rw [checkpointed, List.map_cons, ih, isPending_reportAt, List.map_cons]

/-- The number of pending statuses in a row at the end. -/
def streak (ss : List Status) : Nat := (ss.rtakeWhile isPending).length

lemma streak_snoc (ss : List Status) (s : Status) :
    streak (ss ++ [s]) = checkpoint (streak ss) s := by
  unfold streak checkpoint
  rw [List.rtakeWhile_concat]
  split
  · rw [List.length_append, List.length_singleton]
  · rfl

/-- The counter stands at the number of pending statuses that it has seen in a row. -/
lemma foldl_checkpoint (ss : List Status) : ss.foldl checkpoint 0 = streak ss := by
  induction ss using List.reverseRecOn with
  | nil => rfl
  | append_singleton ss s ih => rw [List.foldl_append, ih, streak_snoc]; rfl

/-- A report is made of its status and of those before it. -/
lemma mem_checkpointed {n : Nat} {ss : List Status} {t : StatusReport}
    (h : t ∈ checkpointed n ss) : ∃ before s after, ss = before ++ s :: after ∧
      t = reportAt (checkpoint (before.foldl checkpoint n) s) s := by
  induction ss generalizing n with
  | nil => cases h
  | cons s ss ih =>
    rcases List.mem_cons.mp h with rfl | h
    · exact ⟨[], s, ss, rfl, rfl⟩
    · obtain ⟨before, s', after, rfl, ht⟩ := ih h
      exact ⟨s :: before, s', after, rfl, ht⟩

/-- A checkpoint is the length of a row of pending reports. -/
lemma checkpoint_row {ss : List Status} {t : StatusReport} (h : t ∈ checkpointed 0 ss) :
    ∃ row, row <:+: checkpointed 0 ss ∧ (∀ u ∈ row, u.isPending = true) ∧
      row.length = t.checkpoint := by
  obtain ⟨before, s, after, hss, ht⟩ := mem_checkpointed h
  have hlength : ((before ++ [s]).rtakeWhile isPending).length = t.checkpoint := by
    rw [ht, foldl_checkpoint, ← streak_snoc]
    rfl
  -- the reports of the pending statuses at the end
  have hinfix : (before ++ [s]).rtakeWhile isPending <:+: ss := by
    refine (List.rtakeWhile_suffix isPending _).isInfix.trans ⟨[], after, ?_⟩
    rw [hss, List.nil_append, List.append_assoc, List.singleton_append]
  have hmapped := hinfix.map isPending
  rw [← checkpointed_isPending 0 ss, List.infix_map_iff] at hmapped
  obtain ⟨row, hrow, hsame⟩ := hmapped
  refine ⟨row, hrow, fun u hu => ?_, ?_⟩
  · have hmem : u.isPending ∈ ((before ++ [s]).rtakeWhile isPending).map isPending :=
      hsame ▸ List.mem_map_of_mem hu
    obtain ⟨s', hs', hpending⟩ := List.mem_map.mp hmem
    rw [← hpending]
    exact List.mem_rtakeWhile_imp hs'
  · have hlengths := congrArg List.length hsame
    rw [List.length_map, List.length_map] at hlengths
    exact hlengths.symm.trans hlength

/-- Reports with the numbers and hints that a manager must see. -/
structure Numbered (reports : List StatusReport) : Prop where
  first : ∀ t, reports.head? = some t → t.checkpoint = if t.isPending then 1 else 0
  next : reports.IsChain fun b t => t.checkpoint =
    if t.isPending then (if b.isPending then b.checkpoint + 1 else 1) else 0
  hint : ∀ t ∈ reports, t.hint ≠ .zero ↔ t.isPending = true

/-- A report that is not pending has no number to count on from. -/
lemma checkpoint_checkpoint (n : Nat) (s u : Status) :
    checkpoint (checkpoint n s) u =
      if isPending u then (if isPending s then checkpoint n s + 1 else 1) else 0 := by
  unfold checkpoint
  rcases isPending s with _ | _ <;> rfl

lemma isChain_checkpointed (n : Nat) (ss : List Status) :
    (checkpointed n ss).IsChain fun b t => t.checkpoint =
      if t.isPending then (if b.isPending then b.checkpoint + 1 else 1) else 0 := by
  induction ss generalizing n with
  | nil => exact List.isChain_nil
  | cons s ss ih =>
    rcases ss with _ | ⟨u, ss⟩
    · exact List.isChain_singleton _
    · refine List.isChain_cons_cons.mpr ⟨?_, ih (checkpoint n s)⟩
      rw [isPending_reportAt, isPending_reportAt]
      exact checkpoint_checkpoint n s u

lemma checkpointed_numbered (ss : List Status) : Numbered (checkpointed 0 ss) where
  first t ht := by
    rcases ss with _ | ⟨s, ss⟩
    · cases ht
    · obtain rfl := Option.some.inj ht
      rw [isPending_reportAt]
      rfl
  next := isChain_checkpointed 0 ss
  hint t ht := by
    obtain ⟨before, s, -, -, rfl⟩ := mem_checkpointed ht
    rw [isPending_reportAt]
    rcases hp : isPending s with _ | _
    · simp [reportAt, checkpoint, hp]
    · simp [reportAt, checkpoint, hp, pendingHint, Span.ofSecs, Span.zero]

end Warden.Host

namespace Warden.Service

open Log

variable {σ : Type} (k : Sink σ) (s : Supervisor σ) (w : Surroundings) (queued : List Request)

/-! ### The statuses of a run -/

lemma Loop.Turns.outcome_ne_startFailed {l : Loop} {is : List Loop.Input} {c : Loop.Course}
    {es : List Effect} (h : l.Turns is c es) : c.outcome? ≠ some .startFailed := by
  rw [h.outcome]
  rcases is.getLast? with _ | i
  · simp
  · rcases i with ⟨_ | _, _⟩ | _ | ⟨_ | _⟩ | _ | _ | ⟨_ | _⟩ <;> simp [Loop.Input.outcome?]

/-- A run that started reports how it ends; for one that did not its host must. -/
lemma Run.statuses_behind (as : List Act) :
    let r := (startBehind k s w queued).run k as
    (r.outcome? = some .startFailed ↔ ∃ e, (s.start w).result = .error e) ∧
      ∃ between, (∀ t ∈ between, t = .running ∨ t = .stopPending) ∧
        statuses r.trace ++ (if r.outcome? = some .startFailed then
            [.stopped Outcome.startFailed.exitCode] else []) =
          .startPending :: between ++ (r.outcome?.map fun o => .stopped o.exitCode).toList := by
  intro r
  have hcourse := startBehind_course k s w queued
  have hstart := startBehind_statuses k s w queued
  rcases hresult : (s.start w).result with e | pid
  · rw [hresult] at hcourse hstart
    obtain ⟨-, hend, htrace⟩ := of_ended k hcourse as
    have hout : r.outcome? = some .startFailed := by
      rw [outcome_eq, hend]
      rfl
    refine ⟨⟨fun _ => ⟨e, rfl⟩, fun _ => hout⟩, [], fun t ht => absurd ht List.not_mem_nil, ?_⟩
    rw [hout, ← statuses_deeds, htrace, statuses_deeds, hstart]
    rfl
  · rw [hresult] at hcourse hstart
    have hnot : r.outcome? ≠ some .startFailed := by
      rw [outcome_eq]
      exact (turns k hcourse as).outcome_ne_startFailed
    refine ⟨⟨fun h => absurd h hnot, fun ⟨e, he⟩ => by cases he⟩, ?_⟩
    refine ⟨.running :: Loop.reports .running ((startBehind k s w queued).inputs k as), ?_, ?_⟩
    · intro t ht
      rcases List.mem_cons.mp ht with rfl | ht
      · exact .inl rfl
      · exact Loop.isUp_reports (.inl rfl) _ t ht
    · rw [if_neg hnot, List.append_nil, statuses_of_serving k hcourse, hstart, lastWord_eq]
      rfl

end Warden.Service

namespace Warden.Host

open Service Log

/-- The code with which a manager is told of an outcome. -/
def lastCode : Outcome → ManagerCode
  | .stopped => .win32 0
  | .startFailed => .serviceSpecific 1
  | .killFailed => .serviceSpecific 2

/-- In the manager's words a run begins as a pending start, is up, and ends with the code of its
outcome. -/
lemma words_behind {between : List Status}
    (hbetween : ∀ s ∈ between, s = .running ∨ s = .stopPending) (o : Option Outcome) :
    let told := Status.startPending :: between ++ (o.map fun o => Status.stopped o.exitCode).toList
    ∃ up, (∀ x ∈ up, x = (.running, 5, .win32 0) ∨ x = (.stopPending, 5, .win32 0)) ∧
      told.map (fun s => (reportAt 0 s).words) = (.startPending, 0, .win32 0) :: up ++
        (o.map fun o => (ManagerState.stopped, 0, lastCode o)).toList := by
  intro told
  refine ⟨between.map fun s => (reportAt 0 s).words, fun x hx => ?_, ?_⟩
  · obtain ⟨s, hs, rfl⟩ := List.mem_map.mp hx
    obtain rfl | rfl := hbetween s hs
    · exact .inl rfl
    · exact .inr rfl
  · rw [List.map_append, List.map_cons]
    rcases o with _ | _ | _ | _ <;> rfl

lemma reported_eq (ss : List Status) (o : Option Outcome) :
    reported ss o =
      ss ++ if o = some .startFailed then [.stopped Outcome.startFailed.exitCode] else [] := by
  rcases o with _ | _ | _ | _
  · exact (List.append_nil ss).symm
  · exact (List.append_nil ss).symm
  · rfl
  · exact (List.append_nil ss).symm

/-- The bridge hears all that the loop reports, as long as it listens. -/
lemma heard_behind {σ : Type} (k : Sink σ) (s : Supervisor σ) (w : Surroundings)
    (queued : List Request) {as : List Act} (h : .deafen ∉ as) :
    ((Run.startBehind k s w queued).run k as).heard =
      statuses ((Run.startBehind k s w queued).run k as).trace := by
  obtain ⟨hears, hlistens⟩ := Run.startBehind_hears (k := k) s w queued
  refine (hears.run as).all ?_
  rw [Run.listens_run, hlistens, Bool.true_and, List.all_eq_true]
  intro a ha
  cases a with
  | deafen => exact absurd ha h
  | _ => rfl

lemma Happening.deafen_not_mem {hs : List Happening} (h : .act .deafen ∉ hs) :
    .deafen ∉ hs.filterMap act? := by
  intro hmem
  obtain ⟨x, hx, hact⟩ := List.mem_filterMap.mp hmem
  cases x with
  | control c => cases c <;> cases hact
  | act a =>
    obtain rfl := Option.some.inj hact
    exact h hx

/-- **A manager is told every status, and in the end that the service has stopped.** As long as
the bridge listens, whatever controls the manager sends, before the start and during the run, its
reports say what the statuses of the run say, each with the requests that the service accepts and
with its code, and one more if the start has failed. The pending start comes first, and the stop
only at the end, once, with the code of the outcome. Pending reports in a row are numbered from
one, and they alone carry a hint; in a row of fewer than 2³² no number outgrows its word. A
report that the manager refuses changes nothing about the others. -/
theorem submitted_reports {σ : Type} (k : Sink σ) (s : Supervisor σ) (w : Surroundings)
    (early : List Control) (hs : List Happening) (hears : .act .deafen ∉ hs)
    (manager : Nat → Bool) :
    let r := (Run.startBehind k s w (early.filterMap Control.request?)).run k
      (hs.filterMap Happening.act?)
    let reports := (submitted manager r).map (·.report)
    (r.outcome? = some .startFailed ↔ ∃ e, (s.start w).result = .error e) ∧
    List.Forall₂ StatusReport.Conveys reports (statuses r.trace ++
      if r.outcome? = some .startFailed then [.stopped (.specific 1)] else []) ∧
    (∃ up, (∀ x ∈ up, x = (.running, 5, .win32 0) ∨ x = (.stopPending, 5, .win32 0)) ∧
      reports.map (fun t => (t.state, t.controls, t.code)) = (.startPending, 0, .win32 0) :: up ++
        (r.outcome?.map fun o => (ManagerState.stopped, 0, lastCode o)).toList) ∧
    Numbered reports ∧
    ((∀ row, row <:+: reports → (∀ t ∈ row, t.isPending = true) → row.length < UInt32.size) →
      ∀ t ∈ reports, t.checkpoint < UInt32.size) ∧
    (submitted manager r).map (·.taken) = (List.range reports.length).map manager ∧
    ∀ manager', (submitted manager' r).map (·.report) = reports := by
  intro r reports
  have hheard : r.heard = statuses r.trace :=
    heard_behind k s w _ (Happening.deafen_not_mem hears)
  obtain ⟨hfailed, between, hbetween, hends⟩ :=
    Run.statuses_behind k s w (early.filterMap Control.request?) (hs.filterMap Happening.act?)
  -- the reports do not depend on the manager
  have hall (m : Nat → Bool) :
      (submitted m r).map (·.report) = checkpointed 0 (reported r.heard r.outcome?) :=
    submissionsFrom_report 0 m _
  have hreports : reports = checkpointed 0 (reported r.heard r.outcome?) := hall manager
  have hreported := reported_eq r.heard r.outcome?
  rw [hheard] at hreported
  refine ⟨hfailed, ?_, ?_, ?_, fun hrows t ht => ?_, ?_, fun m => (hall m).trans hreports.symm⟩
  · rw [hreports, hheard, hreported]
    exact checkpointed_conveys 0 _
  · obtain ⟨up, hup, hwords⟩ := words_behind hbetween r.outcome?
    refine ⟨up, hup, Eq.trans ?_ hwords⟩
    rw [← hends, ← hreported, ← hheard, ← checkpointed_words 0, ← hreports]
    rfl
  · rw [hreports]
    exact checkpointed_numbered _
  · rw [hreports] at ht hrows
    obtain ⟨row, hrow, hpending, hlength⟩ := checkpoint_row ht
    rw [← hlength]
    exact hrows row hrow hpending
  · have htaken := submissionsFrom_taken 0 manager (reported r.heard r.outcome?)
    have hlength : reports.length = (reported r.heard r.outcome?).length := by
      rw [hreports]
      exact (checkpointed_conveys 0 _).length_eq
    rw [hlength]
    exact htaken

/-- A stop that ends in a kill, an interrogation, and a shutdown whose kill fails, though the agent
was not seen to end; a pause that is refused. -/
def overdue : List Happening :=
  [.control .pause, .act .receive, .act (.interrupted (.ok 0)), .act (.look 10000000000),
    .act (.killed (.ok ())), .control .interrogate, .act .receive, .control .shutdown,
    .act .receive, .act (.interrupted (.ok 20000000000)), .act (.look 30000000000),
    .act (.killed (.error (.os 1)))]

theorem submitted_reports_overdue :
    .act .deafen ∉ overdue ∧
    let r := (Run.startBehind Memory.sink unattached (silent 7) [.stop]).run Memory.sink
      (overdue.filterMap Happening.act?)
    let reports := (submitted (· == 1) r).map (·.report)
    reports.map (fun t => (t.state, t.controls, t.code, t.checkpoint)) =
      [(.startPending, 0, .win32 0, 1), (.running, 5, .win32 0, 0), (.stopPending, 5, .win32 0, 1),
        (.stopPending, 5, .win32 0, 2), (.stopPending, 5, .win32 0, 3),
        (.stopped, 0, .serviceSpecific 2, 0)] ∧
    List.Forall₂ StatusReport.Conveys reports [.startPending, .running, .stopPending, .stopPending,
      .stopPending, .stopped (.specific 2)] ∧
    Numbered reports ∧ (∀ t ∈ reports, t.checkpoint < UInt32.size) ∧
    (submitted (· == 1) r).map (·.taken) = [false, true, false, false, false, false] ∧
    (submitted (fun _ => true) r).map (·.report) = reports := by
  have hlistens : .act .deafen ∉ overdue := by simp [overdue]
  obtain ⟨-, hconveys, -, hnumbered, hfits, htaken, hmanager⟩ :=
    submitted_reports Memory.sink unattached (silent 7) [.stop, .continue] overdue hlistens (· == 1)
  refine ⟨hlistens, rfl, hconveys, hnumbered, hfits fun row hrow _ => ?_, htaken,
    hmanager fun _ => true⟩
  have hlength : row.length ≤ 6 := hrow.length_le
  exact hlength.trans_lt (by decide)

end Warden.Host
