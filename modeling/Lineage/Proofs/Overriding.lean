import Lineage.CommandLine.Program

/-!
# Options and the variables that they override

Four settings can be given by a variable of the environment and by an option on the command line
(`CommandLine.Flag.overrides?`), and the option counts. But all variables are read before any option
is, and a variable that cannot be read ends the run, overridden or not. So environments that differ
in overridden variables only make the same of a command line just if they fail to be read in the
same way (`CommandLine.overriding_configure`). Of the host and the name of a queue any text can be
read, so there an option leaves nothing of the variable. A port and a retention have to be readable
also where they are overridden (`CommandLine.overriding_configure_unreadable`).

The argument goes along the steps of reading a command line: an option that an argument names is
among those that are read (`CommandLine.Flag.IsGivenIn.isReadIn`), it has a value then
(`CommandLine.Arguments.gives_of_read`), and this takes the place of the setting
(`CommandLine.SameButOverridden.override_eq`).
-/

namespace Lineage

open Session

/-- A chain of two steps succeeds if both of them do. -/
theorem bind_eq_ok_iff {ε α β : Type} {x : Except ε α} {f : α → Except ε β} {b : β} :
    x >>= f = .ok b ↔ ∃ a, x = .ok a ∧ f a = .ok b := by
  cases x with
  | error e => exact ⟨nofun, fun ⟨_, h, _⟩ => nomatch h⟩
  | ok a => exact ⟨fun h => ⟨a, rfl, h⟩, fun ⟨_, ha, hb⟩ => Except.ok.inj ha ▸ hb⟩

/-! ### Reading the environment -/

namespace Settings

variable {lookup lookup' : String → Option String} {settings : Settings} {error : SettingsError}

/-- The port that an environment gives. -/
def portIn (lookup : String → Option String) : Except SettingsError UInt16 :=
  orStandard (lookup portVariable) standard.queue.port portOfText

/-- The retention that an environment gives. -/
def historyIn (lookup : String → Option String) : Except SettingsError Retention :=
  orStandard (lookup historyVariable) standard.history Retention.ofText

/-- The settings that an environment gives, with a port and a retention that were read before. -/
def withRead (lookup : String → Option String) (port : UInt16) (history : Retention) : Settings :=
  ⟨⟨(lookup hostVariable).getD standard.queue.host, port,
    (lookup nameVariable).getD standard.queue.queueName⟩, history⟩

/-- Only a port and a retention may be unreadable, and the port is read first. -/
theorem ofEnvironment_eq (lookup : String → Option String) :
    ofEnvironment lookup =
      (portIn lookup >>= fun port => historyIn lookup >>= fun history =>
        pure (withRead lookup port history)) := by
  -- A host and a name are any texts.
  have hany (setting : Option String) (standard : String) :
      orStandard setting standard .ok = .ok (setting.getD standard) := by cases setting <;> rfl
  rw [ofEnvironment, hany, hany]
  rfl

/-- An environment is read if its port and its retention are, and both are in the settings then. -/
theorem ofEnvironment_eq_ok_iff : ofEnvironment lookup = .ok settings ↔
    ∃ port history, portIn lookup = .ok port ∧ historyIn lookup = .ok history ∧
      settings = withRead lookup port history := by
  rw [ofEnvironment_eq]
  simp only [bind_eq_ok_iff]
  constructor
  · rintro ⟨port, hport, history, hhistory, hsettings⟩
    exact ⟨port, history, hport, hhistory, (Except.ok.inj hsettings).symm⟩
  · rintro ⟨port, history, hport, hhistory, rfl⟩
    exact ⟨port, hport, history, hhistory, rfl⟩

/-- Whether the texts of an environment can be read as settings. -/
structure IsReadable (lookup : String → Option String) : Prop where
  port : ∀ text, lookup portVariable = some text → ∃ port, portOfText text = .ok port
  history : ∀ text, lookup historyVariable = some text →
    ∃ history, Retention.ofText text = .ok history

/-- A variable can be read if its text can, or if there is none. -/
theorem exists_orStandard_eq_ok_iff {α : Type} {setting : Option String} {standard : α}
    {read : String → Except SettingsError α} : (∃ a, orStandard setting standard read = .ok a) ↔
      ∀ text, setting = some text → ∃ a, read text = .ok a := by
  cases setting with
  | none => exact ⟨fun _ => nofun, fun _ => ⟨standard, rfl⟩⟩
  | some text => simp only [orStandard, Option.some.injEq, forall_eq']

/-- An environment can be read just if settings come of it. -/
theorem isReadable_iff : IsReadable lookup ↔ ∃ settings, ofEnvironment lookup = .ok settings := by
  simp only [ofEnvironment_eq_ok_iff]
  constructor
  · intro h
    obtain ⟨port, hport⟩ : ∃ port, portIn lookup = .ok port := exists_orStandard_eq_ok_iff.2 h.port
    obtain ⟨history, hhistory⟩ : ∃ history, historyIn lookup = .ok history :=
      exists_orStandard_eq_ok_iff.2 h.history
    exact ⟨_, port, history, hport, hhistory, rfl⟩
  · rintro ⟨settings, port, history, hport, hhistory, -⟩
    exact ⟨exists_orStandard_eq_ok_iff.1 ⟨port, hport⟩,
      exists_orStandard_eq_ok_iff.1 ⟨history, hhistory⟩⟩

/-- An environment of one variable. -/
def only (variableName text : String) : String → Option String :=
  fun name => if name = variableName then some text else none

/-- What an environment is refused for is in two of its variables. -/
theorem ofEnvironment_eq_error_congr (hport : lookup portVariable = lookup' portVariable)
    (hhistory : lookup historyVariable = lookup' historyVariable) :
    ofEnvironment lookup = .error error ↔ ofEnvironment lookup' = .error error := by
  have hport' : portIn lookup = portIn lookup' := by rw [portIn, portIn, hport]
  have hhistory' : historyIn lookup = historyIn lookup' := by rw [historyIn, historyIn, hhistory]
  rw [ofEnvironment_eq, ofEnvironment_eq, hport', hhistory']
  cases portIn lookup' with
  | error e => exact Iff.rfl
  | ok port =>
    cases historyIn lookup' with
    | error e => exact Iff.rfl
    | ok history => exact ⟨nofun, nofun⟩

end Settings

namespace CommandLine

/-! ### Options that are given -/

namespace Flag

/-- The variable that an option overrides. -/
def overrides? : Flag → Option String
  | queueHost => some Settings.hostVariable
  | queuePort => some Settings.portVariable
  | queueName => some Settings.nameVariable
  | stateHistory => some Settings.historyVariable
  | input | tcp | sink | output | help => none

/-- A variable is overridden by one option at most. -/
theorem overrides?_inj {flag other : Flag} {name : String} (h : flag.overrides? = some name)
    (hother : other.overrides? = some name) : flag = other := by
  have hsame : flag.overrides? = other.overrides? := h.trans hother.symm
  -- Two options with the same variable are the same in each of the cases.
  cases flag <;> cases other <;> first | rfl | exact absurd hsame (by decide) | cases h

/-- Whether an argument of a command line names an option. -/
def IsGivenIn (flag : Flag) (line : List String) : Prop :=
  ∃ argument ∈ line, ∃ value, readFlag argument = .ok (flag, value)

/-- What starts with a dash and goes on is no value. -/
theorem isValue_ne_true {argument : String} {c : Char} {rest : List Char}
    (hstart : argument.toList = '-' :: c :: rest) : isValue argument ≠ true := by
  intro h
  -- A value is a dash alone, or starts with no dash.
  rw [isValue, Bool.or_eq_true, decide_eq_true_eq, Bool.not_eq_true', Bool.eq_false_iff, ne_eq,
    String.startsWith_string_iff, hstart] at h
  rcases h with rfl | h
  · cases hstart
  · exact h ⟨c :: rest, rfl⟩

/-- An argument that may be a value names no option. -/
theorem readFlag_of_isValue {argument : String} (h : isValue argument = true) :
    readFlag argument = .error (.unexpected argument) := by
  rw [readFlag]
  split
  next rest hrest => exact absurd h (isValue_ne_true hrest)
  next rest hrest => exact absurd h (isValue_ne_true hrest)
  next => rfl

/-- Whether an option is among those that are read, or help is, behind which no other is read. -/
def IsReadIn (flag : Flag) (options : Options) : Prop :=
  (options.lookup flag).isSome = true ∨ (options.lookup .help).isSome = true

/-- An option that is read stays so with another one in front. -/
theorem isSome_lookup_cons {flag first : Flag} {value : String} {later : Options}
    (h : (later.lookup flag).isSome = true) :
    (List.lookup flag ((first, value) :: later)).isSome = true := by
  rw [List.lookup_cons]
  split
  · rfl
  · exact h

/-- An option is among those that are read if it comes first or is read later. -/
theorem IsReadIn.of_map {flag first : Flag} {value : String} {rest : Except UsageError Options}
    {options : Options} (h : rest.map ((first, value) :: ·) = .ok options)
    (hgiven : flag = first ∨ ∀ later, rest = .ok later → flag.IsReadIn later) :
    flag.IsReadIn options := by
  cases rest with
  | error e => cases h
  | ok later =>
    obtain rfl : (first, value) :: later = options := Except.ok.inj h
    rcases hgiven with rfl | hlater
    · left
      rw [List.lookup_cons, beq_self_eq_true]
      rfl
    · exact (hlater later rfl).imp isSome_lookup_cons isSome_lookup_cons

/-- **An option that an argument names is read**, if the command line is and asks for no help
before. -/
theorem IsGivenIn.isReadIn {flag : Flag} {line : List String} {options : Options}
    (h : flag.IsGivenIn line) (hread : readOptions line = .ok options) :
    flag.IsReadIn options := by
  obtain ⟨argument, hmem, given, hgiven⟩ := h
  have hsame {first : String} {other : Flag} {value : Option String}
      (hfirst : readFlag first = .ok (other, value)) : argument = first → flag = other := by
    rintro rfl
    exact congrArg Prod.fst (Except.ok.inj (hgiven.symm.trans hfirst))
  -- The cases are those of what stands at the front of the line.
  fun_induction readOptions line generalizing options with
  | case1 => cases hmem
  | case2 =>
    -- Behind two dashes alone nothing is an option.
    have hdashes : readFlag "--" = .error (.unexpected "--") := rfl
    obtain rfl := List.mem_singleton.1 hmem
    exact nomatch hgiven.symm.trans hdashes
  | case3 first rest hline error hfirst => cases hread
  | case4 first rest hline other value hfirst htakes ih =>
    exact .of_map hread
      ((List.mem_cons.1 hmem).imp (hsame hfirst) fun hmem later hlater => ih hlater hmem)
  | case5 first rest hline other value hfirst htakes => cases hread
  | case6 first other hfirst htakes value rest hvalue hline ih =>
    refine .of_map hread
      ((List.mem_cons.1 hmem).imp (hsame hfirst) fun hmem later hlater => ?_)
    -- The next argument is the value of this one, and so it is no option itself.
    rcases List.mem_cons.1 hmem with rfl | hmem
    · exact nomatch hgiven.symm.trans (readFlag_of_isValue hvalue)
    · exact ih hlater hmem
  | case7 first other hfirst htakes value rest hvalue hline => cases hread
  | case8 first other hfirst htakes hline => cases hread
  -- What asks for help is read, and nothing behind it.
  | case9 first rest hline hfirst htakes =>
    obtain rfl := Except.ok.inj hread
    exact .inr rfl
  | case10 first rest hline other hfirst htakes hhelp ih =>
    exact .of_map hread
      ((List.mem_cons.1 hmem).imp (hsame hfirst) fun hmem later hlater => ih hlater hmem)

end Flag

/-! ### Settings that are replaced -/

namespace Arguments

/-- An option that is given and read has a value. -/
theorem isSome_of_valueOf {α : Type} {options : Options} {flag : Flag} {read? : String → Option α}
    {value : Option α} (h : valueOf options flag read? = .ok value)
    (hgiven : (options.lookup flag).isSome = true) : value.isSome = true := by
  rw [valueOf] at h
  obtain ⟨text, htext⟩ := Option.isSome_iff_exists.1 hgiven
  rw [htext] at h
  cases hread : read? text with
  | none =>
    simp only [hread] at h
    cases h
  | some a =>
    simp only [hread] at h
    exact Except.ok.inj h ▸ rfl

/-- Which of the settings some arguments give. -/
def gives (arguments : Arguments) : Flag → Bool
  | .queueHost => arguments.queueHost.isSome
  | .queuePort => arguments.queuePort.isSome
  | .queueName => arguments.queueName.isSome
  | .stateHistory => arguments.history.isSome
  | .input | .tcp | .sink | .output | .help => false

/-- An option that is read has a value. -/
theorem gives_of_ofOptions {options : Options} {arguments : Arguments}
    (h : ofOptions options = .ok arguments) {flag : Flag} {name : String}
    (hname : flag.overrides? = some name) (hgiven : (options.lookup flag).isSome = true) :
    arguments.gives flag = true := by
  simp only [ofOptions, bind_eq_ok_iff] at h
  obtain ⟨input, -, sink, -, output, -, history, hhistory, host, hhost, port, hport, queueName,
    hqueueName, h⟩ := h
  obtain rfl := Except.ok.inj h
  -- Of the nine options four have a variable, and these are read one behind the other.
  cases flag with
  | queueHost => exact isSome_of_valueOf hhost hgiven
  | queuePort => exact isSome_of_valueOf hport hgiven
  | queueName => exact isSome_of_valueOf hqueueName hgiven
  | stateHistory => exact isSome_of_valueOf hhistory hgiven
  | input => cases hname
  | tcp => cases hname
  | sink => cases hname
  | output => cases hname
  | help => cases hname

/-- **An option that a command line gives has a value**, if the command line is read. -/
theorem gives_of_read {line : List String} {arguments : Arguments} (h : read line = .ok arguments)
    {flag : Flag} {name : String} (hname : flag.overrides? = some name)
    (hgiven : flag.IsGivenIn line) : arguments.gives flag = true := by
  rw [read] at h
  split at h
  · cases h
  next options hoptions =>
    split at h
    · cases h
    · split at h
      · cases h
      next arguments' harguments =>
        split at h
        · cases h
        -- Nobody asked for help, so the option itself was read.
        next hhelp =>
          split at h
          · cases h
          · obtain rfl := Except.ok.inj h
            exact gives_of_ofOptions harguments hname
              ((hgiven.isReadIn hoptions).resolve_right hhelp)

end Arguments

/-- Whether two environments differ in no other variables than those that a command line
overrides. -/
def SameButOverridden (line : List String) (lookup lookup' : String → Option String) : Prop :=
  ∀ name, lookup name = lookup' name ∨
    ∃ flag : Flag, flag.overrides? = some name ∧ flag.IsGivenIn line

section SameButOverridden

variable {line : List String} {lookup lookup' : String → Option String}

/-- A setting is the same in both environments, or an argument takes its place. -/
theorem SameButOverridden.gives_or (h : SameButOverridden line lookup lookup')
    {arguments : Arguments} (hread : Arguments.read line = .ok arguments) (flag : Flag)
    {name : String} (hname : flag.overrides? = some name) :
    arguments.gives flag = true ∨ lookup name = lookup' name := by
  rcases h name with hsame | ⟨other, hother, hgiven⟩
  · exact .inr hsame
  · obtain rfl := Flag.overrides?_inj hname hother
    exact .inl (Arguments.gives_of_read hread hname hgiven)

/-- What would stand in for a value is of no matter where there is one. -/
theorem getD_congr_of_isSome {α : Type} {given : Option α} {a b : α}
    (h : given.isSome = true ∨ a = b) : given.getD a = given.getD b := by
  rcases h with h | rfl
  · obtain ⟨c, rfl⟩ := Option.isSome_iff_exists.1 h
    rfl
  · rfl

/-- **What is overridden makes no difference to the settings**, if it can be read. -/
theorem SameButOverridden.override_eq (h : SameButOverridden line lookup lookup')
    {arguments : Arguments} (hread : Arguments.read line = .ok arguments)
    {settings settings' : Settings} (hsettings : Settings.ofEnvironment lookup = .ok settings)
    (hsettings' : Settings.ofEnvironment lookup' = .ok settings') :
    arguments.override settings = arguments.override settings' := by
  obtain ⟨port, history, hport, hhistory, rfl⟩ := Settings.ofEnvironment_eq_ok_iff.1 hsettings
  obtain ⟨port', history', hport', hhistory', rfl⟩ := Settings.ofEnvironment_eq_ok_iff.1 hsettings'
  have hhosts := (h.gives_or hread .queueHost rfl).imp_right
    (congrArg fun host => host.getD Settings.standard.queue.host)
  have hnames := (h.gives_or hread .queueName rfl).imp_right
    (congrArg fun name => name.getD Settings.standard.queue.queueName)
  -- The ports were read from the same text, or an argument gives another.
  have hports : arguments.queuePort.isSome = true ∨ port = port' := by
    refine (h.gives_or hread .queuePort rfl).imp_right fun hsame => ?_
    rw [Settings.portIn, hsame] at hport
    exact Except.ok.inj (hport.symm.trans hport')
  have hhistories : arguments.history.isSome = true ∨ history = history' := by
    refine (h.gives_or hread .stateHistory rfl).imp_right fun hsame => ?_
    rw [Settings.historyIn, hsame] at hhistory
    exact Except.ok.inj (hhistory.symm.trans hhistory')
  simp only [Arguments.override, Settings.withRead, getD_congr_of_isSome hhosts,
    getD_congr_of_isSome hnames, getD_congr_of_isSome hports, getD_congr_of_isSome hhistories]

/-- An environment that cannot be read ends the run with its own failure. -/
theorem configure_of_error {error : SettingsError}
    (h : Settings.ofEnvironment lookup = .error error) :
    configure lookup line = .error (.badEnvironment error) := by
  rw [configure, h]

/-- No other failure is one of the environment. -/
theorem ofEnvironment_of_configure {error : SettingsError}
    (h : configure lookup line = .error (.badEnvironment error)) :
    Settings.ofEnvironment lookup = .error error := by
  rw [configure] at h
  split at h
  next error' herror =>
    obtain rfl := Failure.badEnvironment.inj (Except.error.inj h)
    exact herror
  -- The arguments fail in another way.
  next settings hsettings =>
    split at h
    · cases h
    next arguments harguments =>
      cases hplan : arguments.plan settings with
      | error e =>
        rw [hplan] at h
        cases h
      | ok plan =>
        rw [hplan] at h
        cases h

/-- Environments that can be read make the same of a command line. -/
theorem SameButOverridden.configure_eq (h : SameButOverridden line lookup lookup')
    {settings settings' : Settings} (hsettings : Settings.ofEnvironment lookup = .ok settings)
    (hsettings' : Settings.ofEnvironment lookup' = .ok settings') :
    configure lookup line = configure lookup' line := by
  rw [configure, configure, hsettings, hsettings']
  cases hread : Arguments.read line with
  | error e => rfl
  | ok arguments =>
    simp only [Arguments.plan, h.override_eq hread hsettings hsettings']

/-- **An option overrides its variable if that can be read.** Take two environments that differ in
no other variables than those that a command line overrides. They make the same of it, be it a plan
or a failure, just if they are refused for the same or not at all: so if both can be read, and if
they agree on the port and the retention, whatever host and name they give. -/
theorem overriding_configure (h : SameButOverridden line lookup lookup') :
    (configure lookup line = configure lookup' line ↔
      ∀ error, Settings.ofEnvironment lookup = .error error ↔
        Settings.ofEnvironment lookup' = .error error) ∧
    (Settings.IsReadable lookup → Settings.IsReadable lookup' →
      configure lookup line = configure lookup' line) ∧
    (lookup Settings.portVariable = lookup' Settings.portVariable →
      lookup Settings.historyVariable = lookup' Settings.historyVariable →
        configure lookup line = configure lookup' line) := by
  have hiff : configure lookup line = configure lookup' line ↔
      ∀ error, Settings.ofEnvironment lookup = .error error ↔
        Settings.ofEnvironment lookup' = .error error := by
    constructor
    · -- A failure of the environment is told as one, so equal results have equal failures.
      intro hsame error
      constructor
      · exact fun herror => ofEnvironment_of_configure
          (hsame.symm.trans (configure_of_error herror))
      · exact fun herror => ofEnvironment_of_configure (hsame.trans (configure_of_error herror))
    · intro hsame
      cases hsettings : Settings.ofEnvironment lookup with
      | error error =>
        rw [configure_of_error hsettings, configure_of_error ((hsame error).1 hsettings)]
      | ok settings =>
        cases hsettings' : Settings.ofEnvironment lookup' with
        | error error => exact nomatch hsettings.symm.trans ((hsame error).2 hsettings')
        | ok settings' => exact h.configure_eq hsettings hsettings'
  refine ⟨hiff, fun hreadable hreadable' => ?_, fun hport hhistory => ?_⟩
  · obtain ⟨settings, hsettings⟩ := Settings.isReadable_iff.1 hreadable
    obtain ⟨settings', hsettings'⟩ := Settings.isReadable_iff.1 hreadable'
    exact h.configure_eq hsettings hsettings'
  · exact hiff.2 fun error => Settings.ofEnvironment_eq_error_congr hport hhistory

/-- Two texts of the variable of an option that is given. -/
theorem sameButOverridden_only (flag : Flag) {name : String} (hname : flag.overrides? = some name)
    (hgiven : flag.IsGivenIn line) (text text' : String) :
    SameButOverridden line (Settings.only name text) (Settings.only name text') := by
  intro other
  by_cases hother : other = name
  · exact .inr ⟨flag, hother ▸ hname, hgiven⟩
  · left
    rw [Settings.only, Settings.only, if_neg hother, if_neg hother]

/-- A port in the environment that can be read makes no difference behind the option, and no host
does behind its. -/
theorem overriding_configure_given :
    let line := ["--queue-port", "7000", "--queue-host", "feed"]
    let portIs := Settings.only Settings.portVariable
    let hostIs := Settings.only Settings.hostVariable
    (SameButOverridden line (portIs "80") (portIs "443") ∧ Settings.IsReadable (portIs "80") ∧
        Settings.IsReadable (portIs "443") ∧
        configure (portIs "80") line = configure (portIs "443") line) ∧
      SameButOverridden line (hostIs "a") (hostIs "\u3000") ∧
        configure (hostIs "a") line = configure (hostIs "\u3000") line := by
  intro line portIs hostIs
  -- Either value is replaced, but only the port can fail to be read.
  have hports : SameButOverridden line (portIs "80") (portIs "443") :=
    sameButOverridden_only .queuePort rfl ⟨"--queue-port", by decide, none, rfl⟩ "80" "443"
  have hhosts : SameButOverridden line (hostIs "a") (hostIs "\u3000") :=
    sameButOverridden_only .queueHost rfl ⟨"--queue-host", by decide, none, rfl⟩ "a" "\u3000"
  have hreadable : Settings.IsReadable (portIs "80") :=
    Settings.isReadable_iff.2 ⟨⟨⟨"127.0.0.1", 80, "p4_events"⟩, .full⟩, rfl⟩
  have hreadable' : Settings.IsReadable (portIs "443") :=
    Settings.isReadable_iff.2 ⟨⟨⟨"127.0.0.1", 443, "p4_events"⟩, .full⟩, rfl⟩
  exact ⟨⟨hports, hreadable, hreadable', (overriding_configure hports).2.1 hreadable hreadable'⟩,
    hhosts, (overriding_configure hhosts).2.2 rfl rfl⟩

/-- A port in the environment that cannot be read ends the run, although the option gives another
one. -/
theorem overriding_configure_unreadable :
    let line := ["--queue-port", "7000"]
    let lookup := Settings.only Settings.portVariable "abc"
    let lookup' := Settings.only Settings.portVariable "80"
    SameButOverridden line lookup lookup' ∧
      configure lookup line = .error (.badEnvironment (.badPort "abc")) ∧
      configure lookup' line =
        .ok ⟨⟨⟨"127.0.0.1", 7000, "p4_events"⟩, .full⟩, .standardInput, .memory⟩ := by
  have hvalue : isValue "7000" = true := by decide +kernel
  -- The command line is right and says all that is needed.
  have hoptions : readOptions ["--queue-port", "7000"] = .ok [(.queuePort, "7000")] := by
    show (if isValue "7000" then _ else _) = _
    rw [hvalue]
    rfl
  have hread : Arguments.read ["--queue-port", "7000"] =
      .ok ⟨none, false, .memory, none, none, none, some 7000, none⟩ := by
    rw [Arguments.read, hoptions]
    rfl
  refine ⟨sameButOverridden_only .queuePort rfl ⟨"--queue-port", by decide, none, rfl⟩ "abc" "80",
    rfl, ?_⟩
  simp only [configure, hread]
  rfl

end SameButOverridden

end CommandLine

end Lineage
