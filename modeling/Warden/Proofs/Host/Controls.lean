import Warden.Host.Bridge
import Warden.Proofs.Service.Inbox
import Warden.Proofs.Service.Interrogations

/-!
What becomes of the controls of a manager.

The handler turns three controls into requests. To the run a call is one more request in the inbox,
or nothing at all (`Managed.call_run`), so the requests that the loop takes and those that it leaves
are the ones sent while it had an inbox (`Managed.runAll_requests`). A control that is refused
leaves no trace in the run, and neither does one that finds no inbox; its answer does not tell.
-/

namespace Warden.Host

open Log Service

/-! ### The handler -/

lemma handle_eq (inbox : Option (List Event)) (c : Control) :
    handle inbox c = (c.request?.elim inbox (send inbox), c.answer) := by
  cases c <;> rfl

lemma handleAll_open (es : List Event) (cs : List Control) :
    handleAll (some es) cs =
      (some (es ++ (cs.filterMap Control.request?).map .request), cs.map Control.answer) := by
  induction cs generalizing es with
  | nil => rw [List.filterMap_nil, List.map_nil, List.append_nil]; rfl
  | cons c cs ih =>
    rw [handleAll, handle_eq]
    rcases hq : c.request? with _ | q
    · simp only [Option.elim_none, ih, List.filterMap_cons_none hq, List.map_cons]
    · simp only [Option.elim_some, send, ih, List.filterMap_cons_some hq, List.map_cons,
        List.append_assoc, List.singleton_append]

lemma answer_eq (c : Control) : c.answer =
    if c = .stop ∨ c = .shutdown ∨ c = .interrogate then .noError else .notImplemented := by
  cases c <;> simp [Control.answer, Control.request?]

/-! ### Happenings -/

/-- The request in an event. -/
def asked? : Event → Option Request
  | .request q => some q
  | .agentGone _ => none

namespace Happening

def control? : Happening → Option Control
  | control c => some c
  | act _ => none

/-- What happens without the handler. -/
def aside? : Happening → Option Act
  | control _ => none
  | act a => some a

/-- Anything but a control that the handler refuses. -/
def counts : Happening → Bool
  | control c => c.request?.isSome
  | act _ => true

end Happening

namespace Managed

variable {σ : Type} (k : Sink σ)

@[simp] lemma runAll_nil (m : Managed σ) : m.runAll k [] = m := rfl

@[simp] lemma runAll_cons (m : Managed σ) (x : Happening) (hs : List Happening) :
    m.runAll k (x :: hs) = (m.step k x).runAll k hs := rfl

lemma runAll_append (m : Managed σ) (hs hs' : List Happening) :
    m.runAll k (hs ++ hs') = (m.runAll k hs).runAll k hs' :=
  List.foldl_append

lemma start_run (s : Supervisor σ) (w : Surroundings) (early : List Control) :
    (start k s w early).run = Run.startBehind k s w (early.filterMap Control.request?) := by
  simp only [start, handleAll_open]
  rfl

lemma start_answers (s : Supervisor σ) (w : Surroundings) (early : List Control) :
    (start k s w early).answers = early.map Control.answer := by
  simp only [start, handleAll_open]

lemma start_requests (s : Supervisor σ) (w : Surroundings) (early : List Control) :
    (start k s w early).run.inbox.filterMap asked? = early.filterMap Control.request? := by
  have hqueued : (start k s w early).run.inbox =
      (early.filterMap Control.request?).map .request := by
    rw [start_run, Run.startBehind]
  rw [hqueued, List.filterMap_map]
  exact List.filterMap_some

/-- Without the controls that are refused a run starts the same. -/
lemma start_counts (s : Supervisor σ) (w : Surroundings) (early : List Control) :
    (start k s w (early.filter fun c => c.request?.isSome)).run = (start k s w early).run := by
  have hrequests : (early.filter fun c => c.request?.isSome).filterMap Control.request? =
      early.filterMap Control.request? := by
    rw [List.filterMap_filter]
    refine List.filterMap_congr fun c _ => ?_
    rcases c.request? with _ | q <;> rfl
  rw [start_run, start_run, hrequests]

/-- To the run a call is an event in the inbox, or nothing. -/
lemma call_run (m : Managed σ) (c : Control) :
    (m.call c).run = c.request?.elim m.run fun q => m.run.post (.request q) := by
  have hcall : (m.call c).run =
      { m.run with inbox := (c.request?.elim m.inbox? (send m.inbox?)).getD m.run.inbox } := by
    rw [call, handle_eq]
  rw [hcall, inbox?]
  rcases hq : c.request? with _ | q
  · rcases hover : m.run.isOver with _ | _ <;> rfl
  · rcases hover : m.run.isOver with _ | _
    · simp [Run.post, hover, send]
    · simp [Run.post, hover, send]

lemma call_answers (m : Managed σ) (c : Control) :
    (m.call c).answers = m.answers ++ [c.answer] := by
  rw [call, handle_eq]

lemma runAll_answers (m : Managed σ) (hs : List Happening) :
    (m.runAll k hs).answers =
      m.answers ++ (hs.filterMap Happening.control?).map Control.answer := by
  induction hs generalizing m with
  | nil => exact (List.append_nil _).symm
  | cons x hs ih =>
    rw [runAll_cons, ih]
    cases x with
    | control c =>
      have hstep : (m.step k (.control c)).answers = m.answers ++ [c.answer] := call_answers m c
      rw [hstep, List.append_assoc]
      rfl
    | act a => rfl

/-! ### The inbox -/

/-- The controls with which the handler is called while the loop's inbox exists. -/
def inTime : Managed σ → List Happening → List Control
  | _, [] => []
  | m, .control c :: hs =>
    (if m.inbox?.isSome then [c] else []) ++ inTime (m.step k (.control c)) hs
  | m, .act a :: hs => inTime (m.step k (.act a)) hs

/-- The events that the loop takes from its inbox. -/
def taken : Managed σ → List Happening → List Event
  | _, [] => []
  | m, .control c :: hs => taken (m.step k (.control c)) hs
  | m, .act a :: hs =>
    (m.run.given? a).toList.filterMap Loop.Input.event? ++ taken (m.step k (.act a)) hs

lemma call_requests (m : Managed σ) (c : Control) :
    (m.call c).run.inbox.filterMap asked? =
      m.run.inbox.filterMap asked? ++
        (if m.inbox?.isSome then [c] else []).filterMap Control.request? := by
  rw [call_run, inbox?]
  rcases hq : c.request? with _ | q
  · rcases hover : m.run.isOver with _ | _ <;> simp [hq]
  · rw [Option.elim_some, Run.post_inbox, List.filterMap_append]
    rcases hover : m.run.isOver with _ | _ <;> simp [hq, asked?]

/-- What happens aside brings no requests. -/
lemma sent_asked {r : Run σ} {a : Act} (h : ∀ q, a ≠ .request q) :
    (r.sent? a).toList.filterMap asked? = [] := by
  unfold Run.sent?
  split
  · rfl
  · cases a with
    | request q => exact absurd rfl (h q)
    | announce => rcases (r.supervisor.announce false).2 with _ | result <;> rfl
    | announceLate => rcases (r.supervisor.announce true).2 with _ | result <;> rfl
    | _ => rfl

/-- **The loop gets the requests that are sent to it while it has an inbox, in order.** -/
theorem runAll_requests (m : Managed σ) (hs : List Happening) (h : ∀ q, .act (.request q) ∉ hs) :
    (m.taken k hs ++ (m.runAll k hs).run.inbox).filterMap asked? =
      m.run.inbox.filterMap asked? ++ (m.inTime k hs).filterMap Control.request? := by
  induction hs generalizing m with
  | nil => exact (List.append_nil _).symm
  | cons x hs ih =>
    have hrest := ih (m.step k x) fun q hq => h q (List.mem_cons_of_mem _ hq)
    rw [runAll_cons]
    cases x with
    | control c =>
      have hcall : (m.step k (.control c)).run = (m.call c).run := rfl
      rw [taken, inTime, hrest, hcall, call_requests, List.filterMap_append, List.append_assoc]
    | act a =>
      have hact : (m.step k (.act a)).run = m.run.step k a := rfl
      have ha (q : Request) : a ≠ .request q := fun hq => h q (hq ▸ List.mem_cons_self)
      rw [taken, inTime, List.append_assoc, List.filterMap_append, hrest, hact, ← List.append_assoc,
        ← List.filterMap_append, Run.step_inbox, List.filterMap_append, sent_asked ha,
        List.append_nil]

/-! ### Controls without effect -/

lemma step_run_congr {m m' : Managed σ} (h : m'.run = m.run) (x : Happening) :
    (m'.step k x).run = (m.step k x).run := by
  cases x with
  | control c => exact (call_run m' c).trans (h ▸ (call_run m c).symm)
  | act a => exact congrArg (·.step k a) h

lemma step_run_of_not_counts {x : Happening} (h : x.counts = false) (m : Managed σ) :
    (m.step k x).run = m.run := by
  cases x with
  | control c =>
    have hnone : c.request? = none := Option.isNone_iff_eq_none.mp (Option.isSome_eq_false_iff.mp h)
    exact (call_run m c).trans (by rw [hnone, Option.elim_none])
  | act a => cases h

/-- Without the controls that are refused a run is the same. -/
lemma runAll_counts {m m' : Managed σ} (h : m'.run = m.run) (hs : List Happening) :
    (m'.runAll k (hs.filter Happening.counts)).run = (m.runAll k hs).run := by
  induction hs generalizing m m' with
  | nil => exact h
  | cons x hs ih =>
    rcases hx : x.counts with _ | _
    · rw [List.filter_cons_of_neg (by simp [hx]), runAll_cons]
      exact ih (h.trans (step_run_of_not_counts k hx m).symm)
    · rw [List.filter_cons_of_pos hx, runAll_cons, runAll_cons]
      exact ih (step_run_congr k h x)

/-- Behind the end calls do nothing to a run. -/
lemma runAll_of_isOver {m : Managed σ} (h : m.run.isOver = true) (hs : List Happening) :
    (m.runAll k hs).run = m.run.run k (hs.filterMap Happening.aside?) := by
  induction hs generalizing m with
  | nil => rfl
  | cons x hs ih =>
    rw [runAll_cons]
    cases x with
    | control c =>
      have hcall : (m.step k (.control c)).run = m.run := by
        refine (call_run m c).trans ?_
        rcases c.request? with _ | q
        · rfl
        · rw [Option.elim_some, Run.post, if_pos h]
      rw [ih (hcall ▸ h), hcall]
      rfl
    | act a => exact ih (Run.isOver_step k h a)

/-! ### Runs with requests -/

lemma host_post (r : Run σ) (e : Event) : (r.post e).host = r.host := by
  unfold Run.post
  split <;> rfl

/-- Only giving up the inbox gives it up. -/
lemma host_step {a : Act} (h : a ≠ .hangUp) (r : Run σ) : (r.step k a).host = r.host := by
  have hannounce (late : Bool) : (r.announce late).host = r.host := by
    unfold Run.announce
    split
    · exact host_post _ _
    · rfl
  cases a with
  | hangUp => exact absurd rfl h
  | request q =>
    rw [Run.step]
    split
    · exact host_post r _
    · rfl
  | announce => exact hannounce false
  | announceLate => exact hannounce true
  | receive =>
    rw [Run.step]
    obtain ⟨e, es, -, -, -, hr⟩ | ⟨-, -, -, -, hr⟩ | ⟨-, -, hr⟩ := r.receive_cases k
    · rw [hr]
      rfl
    · rw [hr]
      rfl
    · rw [hr]
  | _ => rfl

/-- **A run whose handler is called is the run that gets the requests.** -/
theorem runAll_run {m : Managed σ} (hhost : m.run.host = true) {hs : List Happening}
    (h : .act .hangUp ∉ hs) :
    (m.runAll k hs).run = m.run.run k (hs.filterMap Happening.act?) := by
  induction hs generalizing m with
  | nil => rfl
  | cons x hs ih =>
    have hrest : .act .hangUp ∉ hs := List.not_mem_of_not_mem_cons h
    cases x with
    | control c =>
      have hcall : (m.step k (.control c)).run =
          m.run.run k (c.request?.map Act.request).toList := by
        refine (call_run m c).trans ?_
        rcases c.request? with _ | q
        · rfl
        · have hsend : m.run.step k (.request q) = m.run.post (.request q) := if_pos hhost
          exact hsend.symm
      have hkeeps : (m.step k (.control c)).run.host = true := by
        rw [hcall]
        rcases c.request? with _ | q
        · exact hhost
        · have hkeep := host_step k (a := .request q) (by simp) m.run
          exact hkeep.trans hhost
      have hacts : (.control c :: hs).filterMap Happening.act? =
          (c.request?.map Act.request).toList ++ hs.filterMap Happening.act? := by
        rcases hq : c.request? with _ | q
        · exact List.filterMap_cons_none (by rw [Happening.act?, hq, Option.map_none])
        · exact List.filterMap_cons_some (by rw [Happening.act?, hq, Option.map_some])
      rw [runAll_cons, ih hkeeps hrest, hcall, hacts, Run.run_append]
    | act a =>
      have ha : a ≠ .hangUp := fun ha => h (ha ▸ List.mem_cons_self)
      have hkeeps : (m.step k (.act a)).run.host = true := (host_step k ha m.run).trans hhost
      exact ih hkeeps hrest

end Managed

/-- **The loop gets the stops, shutdowns and interrogations that find its inbox, and no other
control makes a difference.** Of the controls that a manager sends, before the start and during
the run, in any order with all that happens besides, those three become requests as long as the
loop has an inbox, each of them one, and it takes or leaves them in the order in which they were
sent. They are answered alike when there is no inbox, and all other controls are refused at any
time. Without the controls that are refused, and with any controls behind its end, the run is the
same: what it has reported, signalled, written and come to. -/
theorem controls_reach_loop {σ : Type} (k : Sink σ) (s : Supervisor σ) (w : Surroundings)
    (early : List Control) (hs : List Happening) (h : ∀ q, .act (.request q) ∉ hs) :
    let m := Managed.start k s w early
    let n := m.runAll k hs
    (m.taken k hs ++ n.run.inbox).filterMap asked? =
        (early ++ m.inTime k hs).filterMap Control.request? ∧
      n.answers = (early ++ hs.filterMap Happening.control?).map (fun c =>
        if c = .stop ∨ c = .shutdown ∨ c = .interrogate then .noError else .notImplemented) ∧
      ((Managed.start k s w (early.filter fun c => c.request?.isSome)).runAll k
        (hs.filter Happening.counts)).run = n.run ∧
      ∀ before after after', hs = before ++ after → (m.runAll k before).run.isOver = true →
        after'.filterMap Happening.aside? = after.filterMap Happening.aside? →
          (m.runAll k (before ++ after')).run = n.run := by
  intro m n
  refine ⟨?_, ?_, Managed.runAll_counts k (Managed.start_counts k s w early) hs,
    fun before after after' hsplit hover hsame => ?_⟩
  · rw [Managed.runAll_requests k m hs h, Managed.start_requests, List.filterMap_append]
  · rw [Managed.runAll_answers, Managed.start_answers, ← List.map_append]
    exact List.map_congr_left fun c _ => answer_eq c
  · have hn : n = (m.runAll k before).runAll k after := by
      rw [← Managed.runAll_append, ← hsplit]
    rw [hn, Managed.runAll_append, Managed.runAll_of_isOver k hover,
      Managed.runAll_of_isOver k hover, hsame]

/-- A stop that is sent before the start, and a shutdown; two controls come behind the end. -/
def belated : List Happening :=
  [.act .receive, .control .pause, .control .shutdown, .act (.interrupted (.ok 0)),
    .act (.exit (.ok (.exited 0))), .act (.look 1), .act .receive, .act .announceLate,
    .act .receive, .control .interrogate, .control (.other "TimeChange")]

theorem controls_reach_loop_belated :
    (∀ q, .act (.request q) ∉ belated) ∧
    let m := Managed.start Memory.sink unattached (silent 7) [.preshutdown, .stop]
    let n := m.runAll Memory.sink belated
    n.run.outcome? = some .stopped ∧
      (m.taken Memory.sink belated ++ n.run.inbox).filterMap asked? = [.stop, .shutdown] ∧
      n.answers = [.notImplemented, .noError, .notImplemented, .noError, .noError,
        .notImplemented] ∧
      ((Managed.start Memory.sink unattached (silent 7) [.stop]).runAll Memory.sink
        (belated.filter Happening.counts)).run = n.run ∧
      (m.runAll Memory.sink (belated.take 9 ++ [.control .stop])).run = n.run := by
  have hown : ∀ q, .act (.request q) ∉ belated := by simp [belated]
  obtain ⟨htaken, hanswers, hcounts, hbehind⟩ :=
    controls_reach_loop Memory.sink unattached (silent 7) [.preshutdown, .stop] belated hown
  have hlate := hbehind (belated.take 9) (belated.drop 9) [.control .stop] rfl rfl rfl
  exact ⟨hown, rfl, htaken, hanswers, hcounts, hlate⟩

end Warden.Host
