import Warden.Proofs.Host.Submissions
import Warden.Proofs.Service.Pace
import Warden.Proofs.Settings.Checks

/-!
How long a manager is told to wait.

The hint of a pending report is the same whatever the settings are, but the time that a stop may
take depends on them. A stop of accepted settings keeps its longest time, and may need all of it, so
the hint covers the stops of just those settings whose longest time fits it (`covers_iff`).
-/

namespace Warden.Host

open Log Service Settings

lemma hint_of_stopPending {manager : Nat → Bool} {ss : List Status} {x : Submission}
    (h : x ∈ submissions manager ss) (hs : x.report.state = .stopPending) :
    x.report.hint = pendingHint := by
  have hmem : x.report ∈ checkpointed 0 ss :=
    submissionsFrom_report 0 manager ss ▸ List.mem_map_of_mem h
  obtain ⟨before, s, -, -, hreport⟩ := mem_checkpointed hmem
  have hpending : isPending s = true := by
    rw [← isPending_reportAt, ← hreport, StatusReport.isPending, hs]
    rfl
  rw [hreport, checkpoint, if_pos hpending]
  rfl

/-- Every report that announces a stop is followed by the next within the limit, and behind the last
report the limit is not passed yet. -/
structure Punctual {σ : Type} (limit : Nat) (m : Timed σ) : Prop where
  inTime : InTime limit m.reports
  last : ∀ since, m.reports.getLast? = some (since, .stopPending) → m.now ≤ since + limit

/-- The hint is kept by all runs of a service with these settings. -/
def Covers (hint : Span) (c : Settings) : Prop :=
  ∀ (σ : Type) (k : Sink σ) (sink : σ) (w : Surroundings) (queued : List Request) (t : Nat)
    (xs : List (Nat × Act)),
    let m := Timed.start k (c.supervisor sink) w queued t
    m.Keeps k c.policy xs → Punctual hint.nanos (m.runAll k xs)

lemma Punctual.mono {σ : Type} {limit limit' : Nat} {m : Timed σ} (h : Punctual limit m)
    (hle : limit ≤ limit') : Punctual limit' m where
  inTime := h.inTime.imp fun _ _ hnext hpending =>
    (hnext hpending).trans (Nat.add_le_add_left hle _)
  last since hlast := (h.last since hlast).trans (Nat.add_le_add_left hle since)

lemma punctual_longest {σ : Type} {k : Sink σ} {s : Supervisor σ}
    {w : Surroundings} {queued : List Request} {t : Nat} {xs : List (Nat × Act)}
    (hpoll : 0 < s.policy.poll.nanos) (h : (Timed.start k s w queued t).Keeps k s.policy xs) :
    Punctual s.policy.longest ((Timed.start k s w queued t).runAll k xs) := by
  have hpaced := Timed.runAll_paced hpoll h
  refine ⟨hpaced.inTime, fun since hlast => ?_⟩
  obtain ⟨l, -, hwaits⟩ := hpaced.last since hlast
  exact hwaits.now_le

/-- **A hint covers the stops of settings whose longest stop fits it, and of no others.** -/
theorem covers_iff {hint : Span} {c : Settings} (hpoll : 0 < c.policy.poll.nanos) :
    Covers hint c ↔ c.policy.longest ≤ hint.nanos := by
  constructor
  · intro hcovers
    obtain ⟨hkeeps, hreports⟩ := Timed.keeps_slowest hpoll c.agent c.arguments
    have hinTime := (hcovers Memory Memory.sink (.empty none) (silent 7) [] 0 _ hkeeps).inTime
    have hslowest : InTime hint.nanos [(0, .startPending), (0, .running), (0, .stopPending),
        (c.policy.longest, .stopped .ok)] := hreports ▸ hinTime
    obtain ⟨-, hbehind⟩ := List.isChain_cons_cons.mp hslowest
    obtain ⟨-, hstop⟩ := List.isChain_cons_cons.mp hbehind
    have hlongest := (List.isChain_cons_cons.mp hstop).1 rfl
    rwa [Nat.zero_add] at hlongest
  · intro hle σ k sink w queued t xs m hkeeps
    exact (punctual_longest (s := c.supervisor sink) hpoll hkeeps).mono hle

/-- A stop timeout of a minute: the report that ends a stop may come 62 seconds behind the one that
announces it, and the hint says 15. -/
theorem hint_short_of_minute :
    let c := said { Options.default with stopTimeout := "60s" } (.ofSecs 60) (.ofSecs 1)
    ofOptions { Options.default with stopTimeout := "60s" } = .ok c ∧
      pendingHint = .ofSecs 15 ∧ c.policy.longest = (Span.ofSecs 62).nanos ∧
      pendingHint.nanos < c.policy.rounded + c.policy.drain.nanos ∧ ¬ Covers pendingHint c := by
  intro c
  have hc : ofOptions { Options.default with stopTimeout := "60s" } = .ok c := by rfl
  have hlongest : c.policy.longest = (Span.ofSecs 62).nanos := by decide +kernel
  have hshort : pendingHint.nanos < c.policy.longest := by
    rw [hlongest]
    decide
  have hpoll : 0 < c.policy.poll.nanos := by decide
  exact ⟨hc, rfl, hlongest, hshort, fun hcovers => hshort.not_ge ((covers_iff hpoll).mp hcovers)⟩

/-- **The hint of a pending stop is fixed, and covers the stops that are short enough.** With
accepted settings a report that announces a stop is followed by the next within the stop timeout,
rounded up to whole poll intervals, and the drain timeout. All this time is needed when the agent
has to be killed and leaves its stream open. The hint is 15 seconds whatever the settings are,
and so it covers all stops just if the rounded timeout is not above 13 seconds. -/
theorem hint_covers_iff {o : Options} {c : Settings} (h : ofOptions o = .ok c) :
    (∀ manager ss, ∀ x ∈ submissions manager ss, x.report.state = .stopPending →
      x.report.hint = .ofSecs 15) ∧
    (∀ (σ : Type) (k : Sink σ) (sink : σ) (w : Surroundings) (queued : List Request) (t : Nat)
      (xs : List (Nat × Act)),
      let m := Timed.start k (c.supervisor sink) w queued t
      m.Keeps k c.policy xs →
        let n := m.runAll k xs
        n.reports.map Prod.snd = statuses n.run.trace ∧
        (.deafen ∉ xs.map Prod.snd → n.reports.map Prod.snd = n.run.heard) ∧
        Punctual (c.policy.rounded + c.policy.drain.nanos) n) ∧
    (∃ xs, let m := Timed.start Memory.sink (c.supervisor (.empty none)) (silent 7) [] 0
      m.Keeps Memory.sink c.policy xs ∧ (m.runAll Memory.sink xs).reports =
        [(0, .startPending), (0, .running), (0, .stopPending),
          (c.policy.rounded + c.policy.drain.nanos, .stopped .ok)]) ∧
    (Covers pendingHint c ↔ c.policy.rounded + c.policy.drain.nanos ≤ pendingHint.nanos) ∧
    (Covers pendingHint c ↔ c.policy.rounded ≤ (Span.ofSecs 13).nanos) := by
  obtain ⟨timeout, poll, hpasses, rfl⟩ := (ofOptions_eq_ok_iff o c).mp h
  have hpoll := hpasses.poll_pos
  have hcovers : Covers pendingHint (said o timeout poll) ↔ _ := covers_iff hpoll
  refine ⟨fun manager ss x => hint_of_stopPending, ?_,
    ⟨_, Timed.keeps_slowest hpoll _ _⟩, hcovers, hcovers.trans ?_⟩
  · intro σ k sink w queued t xs m hkeeps n
    have hreports : n.reports.map Prod.snd = statuses n.run.trace :=
      Timed.runAll_reports (Timed.map_at t _) xs
    refine ⟨hreports, fun hlistens => ?_,
      punctual_longest (s := (said o timeout poll).supervisor sink) hpoll hkeeps⟩
    rw [hreports, Timed.runAll_run]
    exact (heard_behind k _ w queued hlistens).symm
  · -- the drain takes two seconds of the hint
    change _ + 2000000000 ≤ 15000000000 ↔ _ ≤ 13000000000
    omega

theorem hint_covers_iff_default :
    ofOptions .default = .ok (said .default (.ofSecs 10) (.ofSecs 1)) ∧
      Covers pendingHint (said .default (.ofSecs 10) (.ofSecs 1)) := by
  have hdefault : ofOptions .default = .ok (said .default (.ofSecs 10) (.ofSecs 1)) := by rfl
  obtain ⟨-, -, -, -, hcovers⟩ := hint_covers_iff hdefault
  exact ⟨hdefault, hcovers.mpr (by decide +kernel)⟩

end Warden.Host
