import Warden.Proofs.Service.Reports

/-!
Interrogations.

An interrogation repeats the last status, and that is all it does. A run and the same run without
its interrogations are step by step in the same state, apart from interrogations that still lie in
the inbox (`Run.Hushed`); they do and record the same, and the statuses of the one are those of the
other with a copy of the last status at every interrogation (`Echoes`).
-/

namespace Warden.Service

open Agent Log

def Event.isInterrogation : Event → Bool
  | .request .interrogate => true
  | _ => false

lemma Event.eq_of_isInterrogation {e : Event} (h : e.isInterrogation = true) :
    e = .request .interrogate := by
  rcases e with ⟨_ | _ | _⟩ | _
  · rfl
  all_goals cases h

lemma Loop.Input.isInterrogation_event (e : Event) (x : Option Exit) :
    isInterrogation (.event e x) = e.isInterrogation := by
  rcases e with ⟨_ | _ | _⟩ | _ <;> rfl

/-- The effects beside the reports. -/
def unreported (es : List Effect) : List Effect := es.filter (·.status?.isNone)

@[simp] lemma unreported_append (es fs : List Effect) :
    unreported (es ++ fs) = unreported es ++ unreported fs :=
  List.filter_append ..

lemma entries_unreported (es : List Effect) : entries (unreported es) = entries es := by
  rw [entries, unreported, List.filterMap_filter]
  congr 1
  funext e
  cases e <;> rfl

/-! ### Echoes -/

/-- The first list is the second with `n` copies, each right behind the status that it repeats. -/
inductive Echoes : Nat → List Status → List Status → Prop where
  | nil : Echoes 0 [] []
  | report {n : Nat} {s : Status} {ss ts : List Status} (h : Echoes n ss ts) :
    Echoes n (s :: ss) (s :: ts)
  | echo {n : Nat} {s : Status} {ss ts : List Status} (h : Echoes n (s :: ss) ts) :
    Echoes (n + 1) (s :: s :: ss) ts

namespace Loop

/-- Leaving out the interrogations leaves out their echoes, and nothing else. -/
lemma echoes_reports (current : Status) (is : List Input) :
    Echoes (is.countP Input.isInterrogation) (current :: reports current is)
      (current :: reports current (is.filter (!·.isInterrogation))) := by
  induction is generalizing current with
  | nil => exact .report .nil
  | cons i is ih =>
    rcases hi : i.isInterrogation with _ | _
    · have hcount : (i :: is).countP Input.isInterrogation =
          is.countP Input.isInterrogation := by simp [hi]
      have hkeep : (i :: is).filter (!·.isInterrogation) =
          i :: is.filter (!·.isInterrogation) := by simp [hi]
      rw [hcount, hkeep, reports_cons, reports_cons]
      rcases i.report? current with _ | s
      · exact ih current
      · exact .report (ih s)
    · have hcount : (i :: is).countP Input.isInterrogation =
          is.countP Input.isInterrogation + 1 := by simp [hi]
      have hdrop : (i :: is).filter (!·.isInterrogation) =
          is.filter (!·.isInterrogation) := by simp [hi]
      have hreport : i.report? current = some current := by
        rcases i with ⟨e, x⟩ | _ | _
        · rw [Input.isInterrogation_event] at hi
          rw [Event.eq_of_isInterrogation hi]
          rfl
        · cases hi
        · cases hi
      rw [hcount, hdrop, reports_cons, hreport]
      exact .echo (ih current)

/-- The reports of two parts: the second goes on from the last status of the first. -/
lemma reports_append (current : Status) (is js : List Input) :
    reports current (is ++ js) =
      reports current is ++ reports ((reports current is).getLastD current) js := by
  induction is generalizing current with
  | nil => rfl
  | cons i is ih =>
    rw [List.cons_append, reports_cons, reports_cons, ih, List.append_assoc]
    rcases i.report? current with _ | s
    · rfl
    · simp only [Option.toList_some, Option.getD_some, List.singleton_append]
      rw [List.getLastD_cons]

end Loop

namespace Run

variable {σ : Type} (k : Sink σ)

/-- The act is an interrogation, or the loop takes one by it. -/
def isInterrogation (r : Run σ) (a : Act) : Bool :=
  match a with
  | .request .interrogate => true
  | a => (r.given? a).any Loop.Input.isInterrogation

/-- The acts of a run without its interrogations. -/
def hushed : Run σ → List Act → List Act
  | _, [] => []
  | r, a :: as =>
    if r.isInterrogation a then hushed (step k r a) as else a :: hushed (step k r a) as

/-- `r'` is `r` without interrogations. -/
structure Hushed (r r' : Run σ) : Prop where
  supervisor : r'.supervisor = r.supervisor
  inbox : r'.inbox = r.inbox.filter (!·.isInterrogation)
  host : r'.host = r.host
  course : r'.course = r.course
  trace : unreported r'.trace = unreported r.trace

variable {r r' : Run σ}

lemma Hushed.withSupervisor (h : Hushed r r') {s s' : Supervisor σ} (hs : s' = s) :
    Hushed { r with supervisor := s } { r' with supervisor := s' } :=
  ⟨hs, h.inbox, h.host, h.course, h.trace⟩

lemma Hushed.post (h : Hushed r r') {e : Event} (he : e.isInterrogation = false) :
    Hushed (r.post e) (r'.post e) := by
  unfold Run.post
  rw [isOver_congr h.course]
  split
  · exact h
  · refine ⟨h.supervisor, ?_, h.host, h.course, h.trace⟩
    simp [h.inbox, List.filter_append, he]

lemma Hushed.input (h : Hushed r r') (i : Loop.Input) : Hushed (r.input k i) (r'.input k i) := by
  have htrace (t : Run σ) : (t.input k i).trace =
      t.trace ++ (performAll k t.supervisor.sink (t.course.step i).2).2 := rfl
  have hsup (t : Run σ) : (t.input k i).supervisor =
      { t.supervisor with sink := (performAll k t.supervisor.sink (t.course.step i).2).1 } := rfl
  refine ⟨?_, h.inbox, h.host, ?_, ?_⟩
  · rw [hsup, hsup, h.supervisor, h.course]
  · exact congrArg (fun c => (c.step i).1) h.course
  · rw [htrace, htrace, unreported_append, unreported_append, h.trace, h.supervisor, h.course]

lemma Hushed.announce (h : Hushed r r') (late : Bool) :
    Hushed (r.announce late) (r'.announce late) := by
  unfold Run.announce
  rw [h.supervisor]
  split
  · next s result _ => exact (h.withSupervisor rfl).post rfl
  · exact h

lemma Hushed.given (h : Hushed r r') {a : Act} (ha : a ≠ .receive) : r'.given? a = r.given? a := by
  unfold given? offer?
  rw [h.supervisor, h.course]
  cases a with
  | receive => exact absurd rfl ha
  | _ => rfl

/-- An interrogation that is taken repeats the last status. -/
lemma step_interrogation {r : Run σ} (h : r.isListening = true) (x : Option Exit) :
    ∃ s, r.course.step (.event (.request .interrogate) x) = (r.course, [.report s]) := by
  obtain ⟨l, hc, hl⟩ := r.isListening_iff.mp h
  refine ⟨l.current, ?_⟩
  rw [hc]
  simp only [Loop.Course.step, Loop.step, hl]

/-- An interrogation leaves the other run where it is. -/
lemma Hushed.echo (h : Hushed r r') {a : Act} (ha : r.isInterrogation a = true) :
    Hushed (r.step k a) r' ∧ (r.given? a).toList.filter (!·.isInterrogation) = [] := by
  have hreply (i : Stop.Reply) : ((some (Loop.Input.reply i)).filter r.course.takes).any
      Loop.Input.isInterrogation = false := by
    rcases hi : (some (Loop.Input.reply i)).filter r.course.takes with _ | j
    · rfl
    · obtain rfl := Option.some.inj (Option.filter_eq_some_iff.mp hi).1
      rfl
  cases a with
  | request q =>
    rcases q with _ | _ | _
    · refine ⟨?_, rfl⟩
      simp only [Run.step, Run.post]
      split
      · split
        · exact h
        · refine ⟨h.supervisor, ?_, h.host, h.course, h.trace⟩
          rw [List.filter_append, ← h.inbox]
          exact (List.append_nil _).symm
      · exact h
    · cases ha
    · cases ha
  | receive =>
    change (r.given? .receive).any Loop.Input.isInterrogation = true at ha
    obtain ⟨e, es, hb, hl, hi, hstep⟩ | ⟨-, -, -, hi, -⟩ | ⟨-, hi, -⟩ := r.receive_cases k
    · rw [hi, Option.any_some, Loop.Input.isInterrogation_event] at ha
      obtain rfl := Event.eq_of_isInterrogation ha
      refine ⟨?_, by rw [hi]; rfl⟩
      obtain ⟨s, hs⟩ := step_interrogation hl r.supervisor.exit?
      have hrun : r.step k .receive =
          { r with inbox := es }.carryOut k (r.course, [.report s]) :=
        hstep.trans (congrArg (carryOut k { r with inbox := es }) hs)
      rw [hrun]
      refine ⟨h.supervisor, ?_, h.host, h.course, ?_⟩
      · rw [h.inbox, hb]
        rfl
      · have htrace : ({ r with inbox := es }.carryOut k (r.course, [.report s])).trace =
            r.trace ++ [.report s] := rfl
        rw [htrace, unreported_append, h.trace]
        exact (List.append_nil _).symm
    · rw [hi] at ha
      cases ha
    · rw [hi] at ha
      cases ha
  | look | interrupted | killed =>
    have hnot := (hreply _).symm.trans ha
    cases hnot
  | _ => cases ha

/-- Where no interrogation is taken, both loops take the same. -/
lemma Hushed.receive (h : Hushed r r') (ha : r.isInterrogation .receive = false) :
    Hushed (r.receive k) (r'.receive k) ∧ r'.given? .receive = r.given? .receive := by
  change (r.given? .receive).any Loop.Input.isInterrogation = false at ha
  have hinbox := h.inbox
  have hlistening : r'.isListening = r.isListening := isListening_congr h.course
  have hdisconnected : r'.isDisconnected = r.isDisconnected :=
    isDisconnected_congr h.host h.supervisor
  obtain ⟨e, es, hb, hl, hi, hstep⟩ | ⟨hb, hl, hd, hi, hstep⟩ | ⟨hidle, hi, hstep⟩ :=
    r.receive_cases k
  · -- the event is the first one in both inboxes
    rw [hi, Option.any_some, Loop.Input.isInterrogation_event] at ha
    have hkeep : (e :: es).filter (!·.isInterrogation) =
        e :: es.filter (!·.isInterrogation) := by simp [ha]
    rw [hb, hkeep] at hinbox
    obtain ⟨e', es', hb', -, hi', hstep'⟩ | ⟨hb', -⟩ | ⟨hl' | ⟨hb', -⟩, -⟩ := r'.receive_cases k
    · obtain ⟨rfl, rfl⟩ := List.cons.inj (hinbox.symm.trans hb')
      have hexit : r'.supervisor.exit? = r.supervisor.exit? := by rw [h.supervisor]
      rw [hstep, hstep', hi, hi', hexit]
      have hpop : Hushed { r with inbox := es }
          { r' with inbox := es.filter (!·.isInterrogation) } :=
        ⟨h.supervisor, rfl, h.host, h.course, h.trace⟩
      exact ⟨hpop.input k (.event e r.supervisor.exit?), rfl⟩
    · cases hinbox.symm.trans hb'
    · cases (hlistening.trans hl).symm.trans hl'
    · cases hinbox.symm.trans hb'
  · rw [hb, List.filter_nil] at hinbox
    obtain ⟨e', es', hb', -⟩ | ⟨-, -, -, hi', hstep'⟩ | ⟨hl' | ⟨-, hd'⟩, -⟩ := r'.receive_cases k
    · cases hinbox.symm.trans hb'
    · rw [hstep, hstep', hi, hi']
      exact ⟨h.input k .disconnected, rfl⟩
    · cases (hlistening.trans hl).symm.trans hl'
    · cases (hdisconnected.trans hd).symm.trans hd'
  · have hsame : r'.given? .receive = none ∧ r'.receive k = r' := by
      obtain ⟨e', es', hb', hl', -⟩ | ⟨hb', hl', hd', -⟩ | ⟨-, hi', hstep'⟩ := r'.receive_cases k
      · obtain hl | ⟨hb, -⟩ := hidle
        · cases (hlistening.trans hl).symm.trans hl'
        · rw [hb, List.filter_nil] at hinbox
          cases hinbox.symm.trans hb'
      · obtain hl | ⟨-, hd⟩ := hidle
        · cases (hlistening.trans hl).symm.trans hl'
        · cases (hdisconnected.trans hd).symm.trans hd'
      · exact ⟨hi', hstep'⟩
    rw [hstep, hi, hsame.1, hsame.2]
    exact ⟨h, rfl⟩

/-- Any other act does the same to both runs. -/
lemma Hushed.step (h : Hushed r r') {a : Act} (ha : r.isInterrogation a = false) :
    Hushed (r.step k a) (r'.step k a) ∧ r'.given? a = r.given? a := by
  cases a with
  | request q =>
    have hq : (Event.request q).isInterrogation = false := by
      cases q with
      | interrogate => cases ha
      | stop | shutdown => rfl
    refine ⟨?_, h.given (by simp)⟩
    simp only [Run.step]
    rw [h.host]
    split
    · exact h.post hq
    · exact h
  | hangUp => exact ⟨⟨h.supervisor, h.inbox, rfl, h.course, h.trace⟩, h.given (by simp)⟩
  | deafen => exact ⟨⟨h.supervisor, h.inbox, h.host, h.course, h.trace⟩, h.given (by simp)⟩
  | deliver d =>
    exact ⟨h.withSupervisor (congrArg (·.feed [d]) h.supervisor), h.given (by simp)⟩
  | close =>
    exact ⟨h.withSupervisor (congrArg Supervisor.closeStream h.supervisor), h.given (by simp)⟩
  | relay =>
    exact ⟨h.withSupervisor (congrArg (Supervisor.relayOne k) h.supervisor), h.given (by simp)⟩
  | exit result =>
    exact ⟨h.withSupervisor (congrArg (·.recordExit result) h.supervisor), h.given (by simp)⟩
  | lose =>
    exact ⟨h.withSupervisor (congrArg Supervisor.loseWaiter h.supervisor), h.given (by simp)⟩
  | announce => exact ⟨h.announce false, h.given (by simp)⟩
  | announceLate => exact ⟨h.announce true, h.given (by simp)⟩
  | receive => exact h.receive k ha
  | look now =>
    refine ⟨?_, h.given (by simp)⟩
    simp only [Run.step, h.supervisor]
    exact h.input k _
  | interrupted result => exact ⟨h.input k _, h.given (by simp)⟩
  | killed result => exact ⟨h.input k _, h.given (by simp)⟩

lemma given_of_not_isInterrogation {r : Run σ} {a : Act} (h : r.isInterrogation a = false) :
    (r.given? a).any Loop.Input.isInterrogation = false := by
  cases a with
  | request q => rfl
  | _ => exact h

/-- **A run and the same run without its interrogations stay in the same state.** -/
theorem Hushed.run (h : Hushed r r') (as : List Act) :
    Hushed (r.run k as) (r'.run k (r.hushed k as)) ∧
      r'.inputs k (r.hushed k as) = (r.inputs k as).filter (!·.isInterrogation) := by
  induction as generalizing r r' with
  | nil => exact ⟨h, rfl⟩
  | cons a as ih =>
    rw [hushed, inputs, List.filter_append]
    rcases ha : r.isInterrogation a with _ | _
    · obtain ⟨hstep, hgiven⟩ := h.step k ha
      obtain ⟨hrun, hinputs⟩ := ih hstep
      have hkeep : (r.given? a).toList.filter (!·.isInterrogation) = (r.given? a).toList := by
        have hnone := given_of_not_isInterrogation ha
        rcases hi : r.given? a with _ | i
        · rfl
        · rw [hi, Option.any_some] at hnone
          simp [hnone]
      refine ⟨hrun, ?_⟩
      rw [if_neg (by simp), inputs, hgiven, hinputs, hkeep]
    · obtain ⟨hstep, hgiven⟩ := h.echo k ha
      obtain ⟨hrun, hinputs⟩ := ih hstep
      rw [if_pos rfl, hgiven, List.nil_append]
      exact ⟨hrun, hinputs⟩

lemma not_mem_hushed (r : Run σ) (as : List Act) : .request .interrogate ∉ r.hushed k as := by
  induction as generalizing r with
  | nil => exact List.not_mem_nil
  | cons a as ih =>
    rw [hushed]
    split
    · exact ih _
    · next ha =>
      refine List.not_mem_cons_of_ne_of_not_mem (fun hmem => ?_) (ih _)
      rw [← hmem] at ha
      exact ha rfl

/-- A fresh run that finds requests in its inbox, sent before it began. -/
def startBehind (s : Supervisor σ) (w : Surroundings) (queued : List Request) : Run σ :=
  { (start k s w).1 with inbox := queued.map .request }

lemma startBehind_course (s : Supervisor σ) (w : Surroundings) (queued : List Request) :
    (startBehind k s w queued).course = startCourse s (s.start w).result :=
  start_course k s w

lemma startBehind_statuses (s : Supervisor σ) (w : Surroundings) (queued : List Request) :
    statuses (startBehind k s w queued).trace =
      statuses (startEffects s (s.start w).result) := by
  have hdeeds : deeds (startBehind k s w queued).trace =
      deeds (startEffects s (s.start w).result) := start_deeds k s w
  rw [← statuses_deeds, hdeeds, statuses_deeds]

lemma startBehind_hushed (s : Supervisor σ) (w : Surroundings) (queued : List Request) :
    Hushed (startBehind k s w queued)
      (startBehind k s w (queued.filter (· ≠ .interrogate))) := by
  refine ⟨rfl, ?_, rfl, rfl, rfl⟩
  have hrequest : ((fun e : Event => !e.isInterrogation) ∘ Event.request) =
      fun q => decide (q ≠ .interrogate) := by
    funext q
    cases q <;> rfl
  simp only [startBehind, List.filter_map, hrequest]

end Run

/-- **An interrogation repeats the last status and does nothing else.** Without its interrogations,
those that were sent before it began among them, a run takes the same inputs otherwise, comes to the
same outcome, sends the same signals, writes and tells the same, in the same order, and leaves the
same agent and the same sink. Its statuses are those of the run with interrogations without their
echoes: for each interrogation that is taken one copy of the status reported right before, and that
is never the one of the start nor the last word. -/
theorem interrogations_echo {σ : Type} (k : Sink σ) (s : Supervisor σ) (w : Surroundings)
    (queued : List Request) (as : List Act) :
    let r₀ := Run.startBehind k s w queued
    let r₁ := Run.startBehind k s w (queued.filter (· ≠ .interrogate))
    let r := r₀.run k as
    let r' := r₁.run k (r₀.hushed k as)
    let taken := r₀.inputs k as
    let rest := taken.filter (!·.isInterrogation)
    (.request .interrogate ∉ r₀.hushed k as ∧ r₁.inputs k (r₀.hushed k as) = rest) ∧
    (r'.outcome? = r.outcome? ∧ r'.supervisor = r.supervisor ∧
      unreported r'.trace = unreported r.trace ∧ entries r'.trace = entries r.trace) ∧
    (∀ e, (s.start w).result = .error e →
      taken = [] ∧ statuses r.trace = [.startPending] ∧ statuses r'.trace = [.startPending]) ∧
    ∀ pid, (s.start w).result = .ok pid →
      let last := (r.outcome?.map fun o => .stopped o.exitCode).toList
      let between := .running :: Loop.reports .running taken
      let between' := .running :: Loop.reports .running rest
      statuses r.trace = .startPending :: between ++ last ∧
      statuses r'.trace = .startPending :: between' ++ last ∧
      Echoes (taken.countP Loop.Input.isInterrogation) between between' ∧
      (∀ t ∈ between, t = .running ∨ t = .stopPending) ∧
      ∀ before x after, taken = before ++ .event (.request .interrogate) x :: after →
        ∃ t, (.running :: Loop.reports .running before).getLast? = some t ∧
          statuses r.trace = .startPending :: .running :: Loop.reports .running before ++
            t :: Loop.reports t after ++ last := by
  intro r₀ r₁ r r' taken rest
  obtain ⟨hrun, hinputs⟩ := (Run.startBehind_hushed k s w queued).run k as
  have hout : r'.outcome? = r.outcome? := by
    rw [Run.outcome_eq, Run.outcome_eq, hrun.course]
  -- both runs begin as a run with an empty inbox does
  have hcourse : r₀.course = Run.startCourse s (s.start w).result := Run.start_course k s w
  have hstart : statuses r₀.trace = statuses (Run.startEffects s (s.start w).result) := by
    have hdeeds : deeds r₀.trace = deeds (Run.startEffects s (s.start w).result) :=
      Run.start_deeds k s w
    rw [← statuses_deeds, hdeeds, statuses_deeds]
  refine ⟨⟨Run.not_mem_hushed k r₀ as, hinputs⟩,
    ⟨hout, hrun.supervisor, hrun.trace, ?_⟩, fun e he => ?_, fun pid hpid => ?_⟩
  · rw [← entries_unreported, hrun.trace, entries_unreported]
  · rw [he] at hcourse hstart
    obtain ⟨htaken, -, htrace⟩ := Run.of_ended k hcourse as
    obtain ⟨-, -, htrace'⟩ := Run.of_ended k (r := r₁) hcourse (r₀.hushed k as)
    refine ⟨htaken, ?_, ?_⟩
    · rw [← statuses_deeds, htrace, statuses_deeds, hstart]
      rfl
    · rw [← statuses_deeds, htrace', statuses_deeds]
      exact hstart
  · intro last between between'
    rw [hpid] at hcourse hstart
    have htrace : statuses r.trace = .startPending :: between ++ last := by
      have h := Run.statuses_of_serving k hcourse as
      rw [hstart, Run.lastWord_eq] at h
      exact h
    have htrace' : statuses r'.trace = .startPending :: between' ++ last := by
      have hstart' : statuses r₁.trace = statuses (Run.startEffects s (.ok pid)) := hstart
      have h := Run.statuses_of_serving k (r := r₁) hcourse (r₀.hushed k as)
      rw [hstart', hinputs, Run.lastWord_eq, hout] at h
      exact h
    refine ⟨htrace, htrace', Loop.echoes_reports .running taken, fun t ht => ?_,
      fun before x after htaken => ?_⟩
    · rcases List.mem_cons.mp ht with rfl | ht
      · exact .inl rfl
      · exact Loop.isUp_reports (.inl rfl) taken t ht
    · refine ⟨(Loop.reports .running before).getLastD .running, ?_, ?_⟩
      · rw [List.getLast?_cons, List.getLastD_eq_getLast?]
      · have hecho (t : Status) :
            Loop.Input.report? t (.event (.request .interrogate) x) = some t := rfl
        have hbetween : between = .running :: (Loop.reports .running before ++
            (Loop.reports .running before).getLastD .running ::
              Loop.reports ((Loop.reports .running before).getLastD .running) after) := by
          change .running :: Loop.reports .running taken = _
          rw [htaken, Loop.reports_append, Loop.reports_cons, hecho]
          rfl
        rw [htrace, hbetween]
        simp only [List.cons_append, List.append_assoc]

/-- A stop that is refused, between two interrogations, the first of them sent before the run. -/
def queried : List Act :=
  [.receive, .request .stop, .request .interrogate, .receive, .interrupted (.error (.os 1)),
    .receive, .exit (.ok (.exited 0)), .announceLate, .receive]

theorem interrogations_echo_queued :
    (unattached.start (silent 7)).result = .ok 7 ∧
    let r₀ := Run.startBehind Memory.sink unattached (silent 7) [.interrogate]
    let r₁ := Run.startBehind Memory.sink unattached (silent 7) []
    let r := r₀.run Memory.sink queried
    let r' := r₁.run Memory.sink (r₀.hushed Memory.sink queried)
    statuses r.trace =
        [.startPending, .running, .running, .stopPending, .running, .running, .stopped .ok] ∧
      statuses r'.trace = [.startPending, .running, .stopPending, .running, .stopped .ok] ∧
      Echoes 2 [.running, .running, .stopPending, .running, .running]
        [.running, .stopPending, .running] ∧
      r'.supervisor = r.supervisor ∧ unreported r'.trace = unreported r.trace := by
  have hstart : (unattached.start (silent 7)).result = .ok 7 := rfl
  have h := interrogations_echo Memory.sink unattached (silent 7) [.interrogate] queried
  obtain ⟨-, ⟨-, hsupervisor, hrest, -⟩, -, hstarted⟩ := h
  obtain ⟨htrace, htrace', hechoes, -⟩ := hstarted 7 hstart
  exact ⟨hstart, htrace, htrace', hechoes, hsupervisor, hrest⟩

end Warden.Service
