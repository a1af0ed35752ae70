import Warden.Proofs.Session.Polling
import Warden.Proofs.Settings.Durations

/-!
The checks that options have to pass.

Settings are refused for the first condition that fails (`ofOptions_eq_error_iff`), and when all
hold they are what the options say (`ofOptions_eq_ok_iff`). What all accepted settings have in common
is `Sound`: it is what a stop relies on without a look at its policy (`Sound.stop_waits`).
-/

namespace Warden.Settings

open Duration Log Service Text

/-! ### The conditions in their order -/

/-- What a duration is read as, if it is read. -/
def span (raw : String) : Span := (parse raw).toOption.getD .zero

/-- The conditions, each with what is told of options that break it. -/
def conditions (o : Options) : List (Bool × ConfigError) := [
  (trimmed o.service ≠ "", .empty "Service name"),
  (o.agent.map trimmed ≠ some "", .empty "Agent name"),
  ((parse o.stopTimeout).isOk, .invalidDuration o.stopTimeout),
  ((parse o.pollInterval).isOk, .invalidDuration o.pollInterval),
  (0 < (span o.pollInterval).nanos ∧ (span o.pollInterval).nanos ≤ (span o.stopTimeout).nanos,
    .pollInterval (span o.pollInterval) (span o.stopTimeout))]

def firstBroken (o : Options) : Option ConfigError :=
  ((conditions o).find? fun c => !c.1).map Prod.snd

/-- Options that pass, with the durations they give. -/
structure Passes (o : Options) (timeout poll : Span) : Prop where
  service : trimmed o.service ≠ ""
  agent : ∀ a, o.agent = some a → trimmed a ≠ ""
  parse_timeout : parse o.stopTimeout = .ok timeout
  parse_poll : parse o.pollInterval = .ok poll
  poll_pos : 0 < poll.nanos
  poll_le : poll.nanos ≤ timeout.nanos

/-- The settings that options say. -/
def said (o : Options) (timeout poll : Span) : Settings where
  service := trimmed o.service
  agent := (o.agent.map trimmed).getD (trimmed o.service)
  directory := o.directory
  arguments := o.arguments
  policy := ⟨timeout, poll, StopPolicy.drainTimeout⟩
  sink := o.sink

lemma agentName_eq (service : String) (agent : Option String) :
    agentName service agent =
      if agent.map trimmed = some "" then .error (.empty "Agent name")
      else .ok ((agent.map trimmed).getD service) := by
  cases agent with
  | none => rfl
  | some a => simp [agentName]

lemma parse_cases (raw : String) :
    parse raw = .error (.invalidDuration raw) ∨ ∃ d, parse raw = .ok d := by
  cases h : parse raw with
  | error e => rw [parse_error h]; exact .inl rfl
  | ok d => exact .inr ⟨d, rfl⟩

/-- Options are refused for the first condition that they break. -/
lemma ofOptions_eq (o : Options) :
    ofOptions o =
      match firstBroken o with
      | some e => .error e
      | none => .ok (said o (span o.stopTimeout) (span o.pollInterval)) := by
  simp only [ofOptions, agentName_eq, firstBroken, conditions, span, said]
  by_cases hservice : trimmed o.service = ""
  · simp [hservice]
  by_cases hagent : o.agent.map trimmed = some ""
  · simp [hservice, hagent]
  rcases parse_cases o.stopTimeout with htimeout | ⟨timeout, htimeout⟩
  · simp [hservice, hagent, htimeout, Except.isOk, Except.toBool]
  rcases parse_cases o.pollInterval with hpoll | ⟨poll, hpoll⟩
  · simp [hservice, hagent, htimeout, hpoll, Except.isOk, Except.toBool]
  by_cases hfits : 0 < poll.nanos ∧ poll.nanos ≤ timeout.nanos
  · have hkept : ¬(poll.nanos = 0 ∨ timeout.nanos < poll.nanos) := by omega
    simp [hservice, hagent, htimeout, hpoll, hfits, hkept, Except.isOk, Except.toBool,
      Except.toOption]
  · have hbroken : poll.nanos = 0 ∨ timeout.nanos < poll.nanos := by omega
    simp [hservice, hagent, htimeout, hpoll, hfits, hbroken, Except.isOk, Except.toBool,
      Except.toOption]

theorem ofOptions_eq_error_iff (o : Options) (e : ConfigError) :
    ofOptions o = .error e ↔ firstBroken o = some e := by
  rw [ofOptions_eq]
  split <;> simp_all

lemma span_eq {raw : String} {d : Span} (h : parse raw = .ok d) : span raw = d := by
  rw [span, h]
  rfl

lemma isOk_iff (raw : String) : (parse raw).isOk = true ↔ parse raw = .ok (span raw) := by
  rcases parse_cases raw with h | ⟨d, h⟩
  · simp [h, Except.isOk, Except.toBool]
  · simp [h, span_eq h, Except.isOk, Except.toBool]

/-- No condition is broken by options that pass, and by no others. -/
lemma firstBroken_eq_none_iff (o : Options) :
    firstBroken o = none ↔ Passes o (span o.stopTimeout) (span o.pollInterval) := by
  have hagent : o.agent.map trimmed ≠ some "" ↔ ∀ a, o.agent = some a → trimmed a ≠ "" := by
    simp
  simp only [firstBroken, conditions, Option.map_eq_none_iff, List.find?_eq_none,
    List.forall_mem_cons, Bool.not_eq_true', Bool.not_eq_false, decide_eq_true_eq, isOk_iff, hagent]
  constructor
  · rintro ⟨hservice, hagent, htimeout, hpoll, ⟨hpos, hle⟩, -⟩
    exact ⟨hservice, hagent, htimeout, hpoll, hpos, hle⟩
  · rintro ⟨hservice, hagent, htimeout, hpoll, hpos, hle⟩
    exact ⟨hservice, hagent, htimeout, hpoll, ⟨hpos, hle⟩, by simp⟩

theorem ofOptions_eq_ok_iff (o : Options) (s : Settings) :
    ofOptions o = .ok s ↔ ∃ timeout poll, Passes o timeout poll ∧ s = said o timeout poll := by
  rw [ofOptions_eq]
  constructor
  · intro h
    split at h
    next => cases h
    next hnone =>
      exact ⟨_, _, (firstBroken_eq_none_iff o).mp hnone, (Except.ok.inj h).symm⟩
  · rintro ⟨timeout, poll, hpasses, rfl⟩
    obtain rfl := span_eq hpasses.parse_timeout
    obtain rfl := span_eq hpasses.parse_poll
    rw [(firstBroken_eq_none_iff o).mpr hpasses]

/-! ### Accepted settings -/

/-- What all accepted settings have in common. -/
structure Sound (s : Settings) : Prop where
  service_ne : s.service ≠ ""
  service_trimmed : trimmed s.service = s.service
  agent_ne : s.agent ≠ ""
  agent_trimmed : trimmed s.agent = s.agent
  poll_pos : 0 < s.policy.poll.nanos
  poll_le : s.policy.poll.nanos ≤ s.policy.timeout.nanos
  timeout_le : s.policy.timeout.nanos ≤ (2 ^ 64 - 1) * 1000000

lemma Passes.sound {o : Options} {timeout poll : Span} (h : Passes o timeout poll) :
    (said o timeout poll).Sound where
  service_ne := h.service
  service_trimmed := trimmed_trimmed _
  agent_ne := by
    cases hagent : o.agent with
    | none => simpa [said, hagent] using h.service
    | some a => simpa [said, hagent] using h.agent a hagent
  agent_trimmed := by
    cases hagent : o.agent <;> simp [said, hagent, trimmed_trimmed]
  poll_pos := h.poll_pos
  poll_le := h.poll_le
  timeout_le := parse_le h.parse_timeout

/-- Options with the names of accepted settings are accepted again, as the same settings. -/
lemma Passes.again {o : Options} {timeout poll : Span} (h : Passes o timeout poll) {s : Settings}
    (hs : s = said o timeout poll) {agent : Option String}
    (hagent : agent = some s.agent ∨ agent = none ∧ s.agent = s.service) :
    ofOptions { o with service := s.service, agent := agent } = .ok s := by
  have hsound : s.Sound := hs ▸ h.sound
  have hname : (agent.map trimmed).getD s.service = s.agent := by
    rcases hagent with rfl | ⟨rfl, hsame⟩
    · exact hsound.agent_trimmed
    · exact hsame.symm
  have hrest : s = { said o timeout poll with service := s.service, agent := s.agent } := by
    rw [hs]
  refine (ofOptions_eq_ok_iff _ s).mpr ⟨timeout, poll, ⟨?_, ?_, h.parse_timeout, h.parse_poll,
    h.poll_pos, h.poll_le⟩, ?_⟩
  · dsimp only
    rw [hsound.service_trimmed]
    exact hsound.service_ne
  · rintro a rfl
    rcases hagent with hagent | ⟨hagent, -⟩
    · rw [Option.some.inj hagent, hsound.agent_trimmed]
      exact hsound.agent_ne
    · cases hagent
  · simp only [said] at hrest ⊢
    rw [hsound.service_trimmed, hname]
    exact hrest

/-- The stops under accepted settings wait in sleeps of one poll interval, and these take time. -/
lemma Sound.stop_waits {s : Settings} (h : s.Sound) {σ : Type} (k : Sink σ) (sink : σ)
    (as : List Session.Act) :
    let z := (Session.new (s.supervisor sink)).run k as
    z.Polls k s.policy ∧ ∀ t ∈ z.attempts, ∀ d ∈ t.sleeps, 0 < d.nanos := by
  intro z
  have hpolls : z.Polls k s.policy := Session.run_polls k s.agent s.arguments h.poll_pos sink as
  refine ⟨hpolls, fun t ht d hd => ?_⟩
  rw [hpolls.sleeps t ht d hd]
  exact h.poll_pos

/-- **Settings are accepted if and only if every condition holds, and otherwise refused for the
first that fails.** Accepted settings say what the options say. Their names are trimmed and not
empty, and are accepted again as they are. Their poll interval is not zero and fits the stop
timeout, which fits 64 bits of milliseconds: no timeout of zero is accepted, every stop that is
carried out under them waits in sleeps of one poll interval, all of which take time, and its
deadline fits a signed count of seconds. -/
theorem ofOptions_checks (o : Options) :
    (∀ e, ofOptions o = .error e ↔ firstBroken o = some e) ∧
    (∀ s, ofOptions o = .ok s ↔ ∃ timeout poll, Passes o timeout poll ∧ s = said o timeout poll) ∧
    ∀ s, ofOptions o = .ok s →
      s.Sound ∧ s.policy.timeout ≠ .zero ∧
      (o.agent = none → s.agent = s.service) ∧
      s.directory = o.directory ∧ s.arguments = o.arguments ∧ s.sink = o.sink ∧
      (∀ agent, agent = some s.agent ∨ agent = none ∧ s.agent = s.service →
        ofOptions { o with service := s.service, agent := agent } = .ok s) ∧
      (∀ (σ : Type) (k : Sink σ) (sink : σ) (as : List Session.Act),
        let z := (Session.new (s.supervisor sink)).run k as
        z.Polls k s.policy ∧ ∀ t ∈ z.attempts, ∀ d ∈ t.sleeps, 0 < d.nanos) ∧
      s.policy.timeout.nanos / 10 ^ 9 ≤ 18446744073709551 ∧
      ∀ now, now / 10 ^ 9 ≤ 2 ^ 62 → (now + s.policy.timeout.nanos) / 10 ^ 9 < 2 ^ 63 := by
  refine ⟨ofOptions_eq_error_iff o, ofOptions_eq_ok_iff o, fun s hs => ?_⟩
  obtain ⟨timeout, poll, hpasses, rfl⟩ := (ofOptions_eq_ok_iff o s).mp hs
  have hsound := hpasses.sound
  have hpos := hsound.poll_pos
  have hle := hsound.poll_le
  have htimeout := hsound.timeout_le
  refine ⟨hsound, fun hzero => ?_, fun hagent => ?_, rfl, rfl, rfl, fun agent => hpasses.again rfl,
    fun σ k sink as => hsound.stop_waits k sink as, ?_, fun now hnow => ?_⟩
  · have hnone : (said o timeout poll).policy.timeout.nanos = 0 := congrArg Span.nanos hzero
    omega
  · simp [said, hagent]
  · omega
  · omega

/-- The default options, the same with a blank name for the agent, and a stop under the former that
looks for the exit within its ten seconds. -/
theorem ofOptions_checks_default :
    let s := said .default (.ofSecs 10) (.ofSecs 1)
    let z := (Session.new (s.supervisor (Memory.empty none))).run Memory.sink
      [.start (Session.launching true 7), .stop, .interrupted (.ok 5)]
    ofOptions .default = .ok s ∧ ofOptions { Options.default with service := s.service } = .ok s ∧
      ofOptions { Options.default with agent := some " \t" } = .error (.empty "Agent name") ∧
      ∃ t, (z.step Memory.sink (.look 6)).attempts = [t] ∧ t.sleeps = [.ofSecs 1] := by
  intro s z
  have hs : ofOptions .default = .ok s := by rfl
  obtain ⟨-, -, haccepted⟩ := ofOptions_checks .default
  obtain ⟨-, -, hagent, -, -, -, hagain, hstops, -⟩ := haccepted s hs
  obtain ⟨hrefused, -, -⟩ := ofOptions_checks { Options.default with agent := some " \t" }
  obtain ⟨hpolls, -⟩ := hstops _ Memory.sink (Memory.empty none)
    [.start (Session.launching true 7), .stop, .interrupted (.ok 5)]
  have hdeadline : 6 < 5 + s.policy.timeout.nanos := by decide
  obtain ⟨t, ht, hlook⟩ := hpolls.look _ [] (5 + s.policy.timeout.nanos) rfl rfl 6
  rw [if_pos ⟨hdeadline, rfl⟩] at hlook
  exact ⟨hs, hagain none (.inr ⟨rfl, hagent rfl⟩), (hrefused _).mpr (by rfl), t, ht, hlook.2⟩

end Warden.Settings
