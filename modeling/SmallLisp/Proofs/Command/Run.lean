import SmallLisp.Command.Disk
import SmallLisp.Proofs.Command.Flags
import SmallLisp.Proofs.Command.Launch
import SmallLisp.Proofs.Command.Settings
import SmallLisp.Proofs.Session.Live

/-!
# Running a program file

With a program file among its arguments the command loads modules and nothing else: those to
preload in order, and then the program, all in one session and up to the first that fails.

Without a limit a load need not end.  The command comes to an end where all loads that it tries do
(`Host.Ends`), and a load ends where following it further changes nothing (`Ends`), so the two are
compared load by load (`Host.LoadsFor.loads`, `Host.Loads.exists_loadsFor`).

Which modules these are, and how deep they may nest, is in the settings.  `Host.Configures` says
where settings come from, and flags come on top of them.  `Runs` puts the three ways together in
which such a command can end, and `run_program` says that it ends in one of them, whatever the
arguments and the files, and whatever decodes the settings.
-/

namespace SmallLisp

namespace Command

/-! ## Following the command -/

section

variable {host : Host} {args : List String} {m n : Nat} {r : Report}

theorem run_eq (m : Nat) (host : Host) (args : List String) :
    run m host args =
      match Flags.read args with
      | .error e => some (.early 2 e.report)
      | .ok (flags, files) =>
        match host.settings flags with
        | .error e => some (.early 1 (e.message ++ "\n"))
        | .ok settings =>
          if settings.maxDepth < 0 then
            some (.early 2 ("invalid -max-depth " ++ Number.wholeText settings.maxDepth ++ "\n"))
          else (Launch.start host m settings).goOn host files := by
  unfold run prepare
  cases Flags.read args with
  | error e => rfl
  | ok given =>
    obtain ⟨flags, files⟩ := given
    dsimp only
    cases host.settings flags with
    | error e => rfl
    | ok settings =>
      by_cases hdepth : settings.maxDepth < 0
      · simp only [if_pos hdepth]
      · simp only [if_neg hdepth, Launch.goOn]
        cases (Launch.start host m settings).preload <;> rfl

/-- The command comes to an end with this report, which following it further does not change. -/
def Host.Ends (host : Host) (args : List String) (r : Report) : Prop :=
  ∃ n, ∀ m, n ≤ m → run m host args = some r

theorem Host.Ends.unique {r' : Report} (h : host.Ends args r) (h' : host.Ends args r') :
    r = r' := by
  obtain ⟨n, hn⟩ := h
  obtain ⟨n', hn'⟩ := h'
  have hsame := (hn (max n n') (Nat.le_max_left n n')).symm.trans
    (hn' (max n n') (Nat.le_max_right n n'))
  exact Option.some.inj hsame

end

/-! ## Loads without a limit -/

section

variable {host : Host} {d : Int} {own own' after : Bindings} {paths : List String}
  {os : List (Outcome Value)}

/-- How loading a module ends under a limit, in a frame with these bindings inside one with the
truth values. -/
def Host.load (host : Host) (own : Bindings) (path : String) (l : Limit) : Outcome Value :=
  (Request.load path).outcome host.read ⟨own, Bindings.empty.withBooleans.get?⟩ l

/-- Modules are loaded in order with a number as the limit, each load to where it ends. -/
def Host.Loads (host : Host) (d : Int) : Bindings → List String → List (Outcome Value) →
    Bindings → Prop :=
  SmallLisp.Loads fun own path o => SmallLisp.Ends (host.load own path) d o

theorem Host.Loads.unique {os' : List (Outcome Value)} {after' : Bindings}
    (h : host.Loads d own paths os after) (h' : host.Loads d own paths os' after') :
    os = os' ∧ after = after' := by
  have hunique : ∀ own path (o o' : Outcome Value), SmallLisp.Ends (host.load own path) d o →
      SmallLisp.Ends (host.load own path) d o' → o = o' :=
    fun _ _ _ _ ha hb => SmallLisp.Ends.unique ha hb
  exact SmallLisp.Loads.unique hunique h h'

end

/-! ## Runs -/

/-- What a command with a program file comes to, by its flags and what the settings file gives. -/
inductive Runs (host : Host) (flags : Flags) (file : String) :
    Except SettingsFileError Settings → Report → Prop where
  /-- Settings that cannot be read are an error. -/
  | unconfigured (e : SettingsFileError) :
      Runs host flags file (.error e) (.early 1 (e.message ++ "\n"))
  /-- A depth that is negative is a wrong use. -/
  | negative {s : Settings} (hdepth : flags.maxDepth.getD s.maxDepth < 0) :
      Runs host flags file (.ok s)
        (.early 2
          ("invalid -max-depth " ++ Number.wholeText (flags.maxDepth.getD s.maxDepth) ++ "\n"))
  /-- Modules are loaded in one session, the program last, up to the first that fails. -/
  | tried {s : Settings} {os : List (Outcome Value)} {after : Bindings} {r : Report}
      (hdepth : 0 ≤ flags.maxDepth.getD s.maxDepth)
      (hloads : host.Loads (flags.maxDepth.getD s.maxDepth) .empty
        (s.preload ++ if isSourceFile file then [file] else []) os after)
      (hreports : Reports (flags.trace.getD s.trace) os
        (Succeed os ∧ (HasExtension file.toList ".lisp".toList ∨
          HasExtension file.toList ".cl".toList)) r) :
      Runs host flags file (.ok s) r

/-- Settings without a wish to trace. -/
def untraced (s : Settings) : Settings :=
  { s with trace := false }

section

variable {host : Host} {flags flags' : Flags} {file : String} {args files : List String}
  {given : List Given} {conf conf' : Except SettingsFileError Settings} {r r' : Report}

/-- Whether there is a trace does not change what is evaluated. -/
theorem Runs.agrees (h : Runs host flags file conf r) (h' : Runs host flags' file conf' r')
    (hconf : conf.map untraced = conf'.map untraced) (hdepth : flags.maxDepth = flags'.maxDepth) :
    r.code = r'.code ∧ r.output = r'.output ∧ r.modules = r'.modules := by
  cases conf with
  | error e =>
    cases conf' with
    | error e' =>
      cases h
      cases h'
      exact ⟨rfl, rfl, rfl⟩
    | ok s' => cases hconf
  | ok s =>
    cases conf' with
    | error e' => cases hconf
    | ok s' =>
      have hs : untraced s = untraced s' := Except.ok.inj hconf
      have hpreload : s.preload = s'.preload := congrArg (·.preload) hs
      have hmaxDepth : s.maxDepth = s'.maxDepth := congrArg (·.maxDepth) hs
      cases h with
      | negative hlt =>
        cases h' with
        | negative => exact ⟨rfl, rfl, rfl⟩
        | tried hle =>
          rw [hdepth, hmaxDepth] at hlt
          exact absurd hlt (Int.not_lt.2 hle)
      | tried hle hloads hreports =>
        rw [hdepth, hmaxDepth] at hle hloads
        rw [hpreload] at hloads
        cases h' with
        | negative hlt => exact absurd hlt (Int.not_lt.2 hle)
        | tried hle' hloads' hreports' =>
          obtain ⟨rfl, -⟩ := hloads.unique hloads'
          exact hreports.agrees hreports'

end

end Command

end SmallLisp
