import Warden.Options.Parse
import Warden.Proofs.Service.Turns
import Warden.Proofs.Supervisor
import Warden.Settings

/-!
Arguments for the agent.

Whatever stands behind the first `--` is for the agent, word for word. It is not read, so it changes
nothing about the options, the settings or the agent that is launched but its arguments.
-/

namespace Warden.Options

/-! ### The end of the options -/

lemma long_ne_endOfOptions (name : String) (value : Option String) :
    long name value ≠ .endOfOptions := by
  unfold long
  split
  · simp
  · split
    · split
      · simp
      · split <;> simp
    · simp

/-- Only two dashes end the options. -/
lemma ne_endOfOptions {a : String} (h : a ≠ "--") : Argument.ofString a ≠ .endOfOptions := by
  unfold Argument.ofString
  split
  · next hlist =>
    have hdashes : a = "--" := by
      rw [← String.ofList_toList (s := a), hlist]
    exact absurd hdashes h
  · split
    · exact long_ne_endOfOptions _ _
    · exact long_ne_endOfOptions _ _
  · split
    · simp
    · split <;> simp
  · simp

/-- Two dashes end the options wherever they stand; no option takes them as its value. -/
lemma scan_dashes (env : Env) (g : Given) (p : Pending) (as : List String) :
    scan env g p ("--" :: as) = (settle g p).map (·, as) := by
  have hdashes : Argument.ofString "--" = .endOfOptions := rfl
  rw [scan, hdashes]

/-- What is read before the end of the options does not depend on what stands behind it. -/
lemma scan_behind (env : Env) (g : Given) (p : Pending) {as : List String} (h : "--" ∉ as)
    (bs : List String) :
    scan env g p (as ++ "--" :: bs) = (scan env g p as).map fun x => (x.1, bs) := by
  induction as generalizing g p with
  | nil =>
    rw [List.nil_append, scan_dashes, scan]
    cases settle g p <;> rfl
  | cons a as ih =>
    rw [List.mem_cons, not_or] at h
    obtain ⟨ha, has⟩ := h
    have hend := ne_endOfOptions (Ne.symm ha)
    rw [List.cons_append, scan, scan]
    rcases hread : Argument.ofString a with _ | ⟨n, _ | v⟩ | _ | _ | _ | _ | v
    · exact absurd hread hend
    · simp only
      cases settle g p with
      | error e => rfl
      | ok g => exact ih g _ has
    · simp only
      cases settle g p with
      | error e => rfl
      | ok g =>
        simp only
        cases accept g n v with
        | error e => rfl
        | ok g => exact ih g _ has
    · simp only
      cases settle g p <;> rfl
    · simp only
      cases settle g p <;> rfl
    · rfl
    · rfl
    · rcases p with _ | ⟨n, _ | u⟩
      · rfl
      · exact ih g _ has
      · rfl

lemma parse_behind (env : Env) {as : List String} (h : "--" ∉ as) (bs : List String) :
    parse env (as ++ "--" :: bs) =
      (parse env as).map fun o => { o with arguments := bs } := by
  unfold parse
  rw [scan_behind env [] none h]
  rcases scan env [] none as with e | ⟨g, arguments⟩
  · rfl
  · simp only [Except.map]
    cases fill env g Name.all <;> rfl

end Warden.Options

namespace Warden.Settings

/-! ### Settings and the agent -/

lemma ofOptions_arguments (o : Options) (as : List String) :
    ofOptions { o with arguments := as } =
      (ofOptions o).map fun s => { s with arguments := as } := by
  unfold ofOptions
  simp only
  split
  · rfl
  · rcases agentName (Text.trimmed o.service) o.agent with e | agent
    · rfl
    · rcases Duration.parse o.stopTimeout with e | timeout
      · rfl
      · rcases Duration.parse o.pollInterval with e | poll
        · rfl
        · simp only
          split <;> rfl

end Warden.Settings

namespace Warden.Options

open Agent

/-- **What stands behind the first `--` reaches the agent, word for word, and changes nothing
else.** The options are those that are read without it; a `--` is never an option's value, so the
first one ends the options. The settings are accepted or refused as without it, for the same
reason, and the agent is launched with just these arguments. -/
theorem arguments_passed_on (env : Env) (p a : List String) (o : Options) (hp : parse env p = .ok o)
    (hfree : "--" ∉ p) {σ : Type} (sink : σ) (w : Surroundings) :
    parse env (p ++ "--" :: a) = .ok { o with arguments := a } ∧
    Settings.ofOptions { o with arguments := a } =
      (Settings.ofOptions o).map (fun s => { s with arguments := a }) ∧
    ∀ s, Settings.ofOptions o = .ok s →
      let s' : Settings := { s with arguments := a }
      Settings.ofOptions { o with arguments := a } = .ok s' ∧
      (∀ c, .launch c ∈ ((s'.supervisor sink).start w).inquiries → c.arguments = a) ∧
      ∀ dir, w.directory = .ok dir → w.launchable (Agent.path w.platform dir s.agent) = true →
        .launch ⟨Agent.path w.platform dir s.agent, dir, a⟩ ∈
          ((s'.supervisor sink).start w).inquiries := by
  have hsettings := Settings.ofOptions_arguments o a
  refine ⟨?_, hsettings, fun s hs => ⟨?_, fun c hc => ?_, fun dir hdir hpath => ?_⟩⟩
  · rw [parse_behind env hfree, hp]
    rfl
  · rw [hsettings, hs]
    rfl
  · have hattempt : (Settings.supervisor { s with arguments := a } sink).Attempted w _ :=
      Supervisor.start_attempted rfl w
    obtain ⟨dir, -, -, rfl⟩ := hattempt.launch hc
    rfl
  · have hattempt : (Settings.supervisor { s with arguments := a } sink).Attempted w _ :=
      Supervisor.start_attempted rfl w
    exact hattempt.launch_mem hdir hpath

/-- Options in two spellings, and arguments for the agent that look like options. -/
theorem arguments_passed_on_lookalikes :
    let p := ["--agent=worker", "--poll-interval", "2s"]
    let a := ["--", "-h", "--agent=x", "-", ""]
    let o : Options := { default with agent := some "worker", pollInterval := "2s" }
    let s : Settings := ⟨"mackerel-agent", "worker", none, [],
      ⟨.ofSecs 10, .ofSecs 2, .ofSecs 2⟩, .system⟩
    parse (fun _ => none) p = .ok o ∧ "--" ∉ p ∧
    parse (fun _ => none) (p ++ "--" :: a) = .ok { o with arguments := a } ∧
    Settings.ofOptions { o with arguments := a } = .ok { s with arguments := a } ∧
    .launch ⟨"/opt/worker", "/opt", a⟩ ∈
      ((Settings.supervisor { s with arguments := a } ()).start (Service.silent 7)).inquiries := by
  intro p a o s
  have hp : parse (fun _ => none) p = .ok o := rfl
  have hfree : "--" ∉ p := by decide
  have hs : Settings.ofOptions o = .ok s := by decide +kernel
  have hpath : path .unix "/opt" s.agent = "/opt/worker" := by decide +kernel
  obtain ⟨hparse, -, hsettings⟩ :=
    arguments_passed_on (fun _ => none) p a o hp hfree () (Service.silent 7)
  obtain ⟨hok, -, hlaunch⟩ := hsettings s hs
  exact ⟨hp, hfree, hparse, hok, hpath ▸ hlaunch "/opt" rfl rfl⟩

end Warden.Options
