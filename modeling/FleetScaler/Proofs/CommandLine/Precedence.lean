import FleetScaler.Proofs.CommandLine.Groups
import FleetScaler.Proofs.Settings.Overlay

/-!
# Which settings a command line comes to

A setting is what the last flag for it says, or else what the configuration file says, or else the
default. The file is the one that the last `--config` names, unless it names none by being empty.
-/

namespace FleetScaler.CommandLine

variable {groups : List Group} {files : String → Found} {file : Option Json} {s : Settings}

/-- What the file states under a key, if there is a file. -/
def inFile {α : Type} (read : Json → Option α) (file : Option Json) (key : String) : Option α :=
  file.bind fun v => Settings.stated read v key

/-- Each setting is that of the last flag for it, or else that of the file, or else the default. -/
structure Precedence (groups : List Group) (file : Option Json) (s : Settings) : Prop where
  requirementsPath : s.requirementsPath = ((lastText groups .requirements).or
    (inFile Json.text? file "requirementsPath")).getD ({} : Settings).requirementsPath
  /-- In the file, the newer of the two keys wins. -/
  pollIntervalMs : s.pollIntervalMs = ((lastNumber groups .pollInterval).or
    ((inFile Json.word? file "pollIntervalMs").or
      (inFile Json.word? file "pollTime"))).getD ({} : Settings).pollIntervalMs
  nodes : s.nodes = ((lastNumber groups .nodes).or
    (inFile Json.word? file "nodes")).getD ({} : Settings).nodes
  runSeconds : s.runSeconds = ((lastNumber groups .runSeconds).or
    (inFile Json.word? file "runSeconds")).getD ({} : Settings).runSeconds
  failoverAfterSeconds : s.failoverAfterSeconds = ((lastNumber groups .failoverAfter).or
    (inFile Json.word? file "failoverAfterSeconds")).getD ({} : Settings).failoverAfterSeconds
  logLevel : s.logLevel = ((lastText groups .logLevel).or
    (inFile Json.text? file "logLevel")).getD ({} : Settings).logLevel
  jsonLogs : s.jsonLogs = true
    ↔ .jsonLogs ∈ groups ∨ inFile Json.bool? file "jsonLogs" = some true
  groupPath : s.groupPath = (inFile Json.text? file "groupPath").getD ({} : Settings).groupPath
  nodeType : s.nodeType = (inFile Json.text? file "nodeType").getD ({} : Settings).nodeType
  nodeId : s.nodeId = (inFile Json.text? file "nodeId").getD ({} : Settings).nodeId
  asyncLogging : s.asyncLogging =
    (inFile Json.bool? file "asyncLogging").getD ({} : Settings).asyncLogging

/-- The configuration file of the groups: none without a last `--config` that names one, or else
what its text holds, which has to be laid over settings. -/
def ConfigFile (groups : List Group) (files : String → Found) : Option Json → Prop
  | none => (lastText groups .config).getD "" = ""
  | some v => ∃ path text, lastText groups .config = some path ∧ path ≠ ""
      ∧ files path = .text text ∧ Json.parseFirst text = .ok v ∧ Settings.WellTyped v

/-- The settings under the flags: what the file states, or else the defaults. -/
def underFlags : Option Json → Settings
  | none => {}
  | some v => Settings.overlaid {} v

theorem load_eq_ok_iff {base : Settings} {path : String} {found : Found} :
    (base.load path found).1 = .ok s ↔ ∃ text v, found = .text text
      ∧ Json.parseFirst text = .ok v ∧ Settings.WellTyped v ∧ s = base.overlaid v := by
  cases found with
  | nothing => simp [Settings.load]
  | folder => simp [Settings.load]
  | text text =>
      cases hparse : Json.parseFirst text with
      | error e => simp [Settings.load, hparse]
      | ok v =>
          have hload : (base.load path (.text text)).1 = .ok s ↔ base.overlay v = .ok s := by
            simp only [Settings.load, hparse]
            cases base.overlay v <;> simp
          rw [hload, Settings.overlay_eq_ok_iff]
          constructor
          · rintro ⟨htyped, hs⟩
            exact ⟨text, v, rfl, hparse, htyped, hs⟩
          · rintro ⟨text', v', htext, hv, htyped, hs⟩
            obtain rfl := Found.text.inj htext
            obtain rfl := Except.ok.inj (hparse.symm.trans hv)
            exact ⟨htyped, hs⟩

theorem fileSettings_eq_ok_iff :
    (noting {} groups).fileSettings files = .ok s
      ↔ ∃ file, ConfigFile groups files file ∧ s = underFlags file := by
  have hpath : (noting {} groups).configPath = (lastText groups .config).getD "" := rfl
  rw [fileSettings, hpath]
  by_cases hnone : (lastText groups .config).getD "" = ""
  · rw [if_pos hnone]
    constructor
    · intro h
      exact ⟨none, hnone, (Except.ok.inj h).symm⟩
    · rintro ⟨file, hfile, rfl⟩
      cases file with
      | none => rfl
      | some v =>
          obtain ⟨path, text, hlast, hne, -⟩ := hfile
          exact absurd (by simpa [hlast] using hnone) hne
  · rw [if_neg hnone, load_eq_ok_iff]
    obtain ⟨path, hlast⟩ : ∃ path, lastText groups .config = some path := by
      cases hlast : lastText groups .config with
      | none => simp [hlast] at hnone
      | some path => exact ⟨path, rfl⟩
    simp only [hlast, Option.getD_some] at hnone ⊢
    constructor
    · rintro ⟨text, v, hfound, hparse, htyped, rfl⟩
      exact ⟨some v, ⟨path, text, hlast, hnone, hfound, hparse, htyped⟩, rfl⟩
    · rintro ⟨file, hfile, rfl⟩
      cases file with
      | none => exact absurd (by simpa [ConfigFile, hlast] using hfile) hnone
      | some v =>
          obtain ⟨path', text, hlast', -, hfound, hparse, htyped⟩ := hfile
          obtain rfl := Option.some.inj (hlast.symm.trans hlast')
          exact ⟨text, v, hfound, hparse, htyped, rfl⟩

/-- What is under the flags, setting by setting. -/
theorem underFlags_eq : underFlags file = {
    pollIntervalMs := ((inFile Json.word? file "pollIntervalMs").or
      (inFile Json.word? file "pollTime")).getD ({} : Settings).pollIntervalMs
    groupPath := (inFile Json.text? file "groupPath").getD ({} : Settings).groupPath
    nodeType := (inFile Json.text? file "nodeType").getD ({} : Settings).nodeType
    nodeId := (inFile Json.text? file "nodeId").getD ({} : Settings).nodeId
    logLevel := (inFile Json.text? file "logLevel").getD ({} : Settings).logLevel
    jsonLogs := (inFile Json.bool? file "jsonLogs").getD ({} : Settings).jsonLogs
    asyncLogging := (inFile Json.bool? file "asyncLogging").getD ({} : Settings).asyncLogging
    requirementsPath :=
      (inFile Json.text? file "requirementsPath").getD ({} : Settings).requirementsPath
    nodes := (inFile Json.word? file "nodes").getD ({} : Settings).nodes
    runSeconds := (inFile Json.word? file "runSeconds").getD ({} : Settings).runSeconds
    failoverAfterSeconds :=
      (inFile Json.word? file "failoverAfterSeconds").getD
        ({} : Settings).failoverAfterSeconds } := by
  cases file <;> rfl

/-- The flags over the file over the defaults are the settings that take precedence. -/
theorem eq_apply_iff :
    s = (noting {} groups).apply (underFlags file) ↔ Precedence groups file s := by
  have hjson : s.jsonLogs = (decide (Group.jsonLogs ∈ groups)
        || (inFile Json.bool? file "jsonLogs").getD false)
      ↔ (s.jsonLogs = true
        ↔ .jsonLogs ∈ groups ∨ inFile Json.bool? file "jsonLogs" = some true) := by
    rw [Bool.eq_iff_iff]
    simp [Option.getD_eq_iff]
  rw [underFlags_eq]
  constructor
  · intro h
    constructor
    case jsonLogs => exact hjson.mp (by rw [h]; simp [apply, noting])
    all_goals
      rw [h]
      simp [apply, noting]
  · intro h
    obtain ⟨poll, group, type, id, level, json, async, path, nodes, run, failover⟩ := s
    have hlogs := hjson.mpr h.jsonLogs
    obtain ⟨rfl, rfl, rfl, rfl, rfl, rfl, -, rfl, rfl, rfl, rfl⟩ := h
    simpa [apply, noting] using hlogs

theorem resolve_eq_ok_iff {line : CommandLine} :
    line.resolve files = .ok s
      ↔ ∃ base, line.fileSettings files = .ok base ∧ s = line.apply base ∧ s.invalid? = none := by
  cases hbase : line.fileSettings files with
  | error e => simp [resolve, hbase, bind, Except.bind]
  | ok base =>
      cases hinvalid : (line.apply base).invalid? with
      | some e =>
          simp only [resolve, hbase, bind, Except.bind, hinvalid, Except.ok.injEq, false_iff,
            exists_eq_left', reduceCtorEq]
          rintro ⟨rfl, hnone⟩
          exact absurd (hinvalid.symm.trans hnone) (by simp)
      | none =>
          simp only [resolve, hbase, bind, Except.bind, hinvalid, Except.ok.injEq,
            exists_eq_left']
          constructor
          · rintro rfl
            exact ⟨rfl, hinvalid⟩
          · rintro ⟨rfl, -⟩
            rfl

/-- **Which settings the groups come to**: none if the named file cannot be had or the settings
make no sense, and else those that take precedence. -/
theorem resolve_noting_eq_ok_iff :
    (noting {} groups).resolve files = .ok s
      ↔ ∃ file, ConfigFile groups files file ∧ Precedence groups file s ∧ s.invalid? = none := by
  rw [resolve_eq_ok_iff]
  constructor
  · rintro ⟨base, hbase, hs, hvalid⟩
    obtain ⟨file, hfile, rfl⟩ := fileSettings_eq_ok_iff.mp hbase
    exact ⟨file, hfile, eq_apply_iff.mp hs, hvalid⟩
  · rintro ⟨file, hfile, hprecedence, hvalid⟩
    exact ⟨underFlags file, fileSettings_eq_ok_iff.mpr ⟨file, hfile, rfl⟩,
      eq_apply_iff.mpr hprecedence, hvalid⟩

/-- **What an accepted list of arguments does.** It falls into groups in one way only, and comes to
settings in which the last flag goes before the file and the file before the defaults. Behind it, a
flag takes the next argument whatever it looks like, and is unknown if there is none. Its groups
may be rearranged as long as those of each flag stay in order. -/
theorem groups_take_precedence {arguments : List String} {line : CommandLine}
    (h : parse arguments = .ok (.run line)) :
    ∃ groups, (∀ groups', arguments = words groups' ↔ groups' = groups)
      ∧ (∀ files s, line.resolve files = .ok s
          ↔ ∃ file, ConfigFile groups files file ∧ Precedence groups file s ∧ s.invalid? = none)
      ∧ (∀ (flag : Flag) text rest, parse (arguments ++ flag.name :: text :: rest)
          = if (Group.value flag text).Sound
            then parseFrom (noting {} (groups ++ [.value flag text])) rest
            else .error (.invalidNumber flag))
      ∧ (∀ flag : Flag, parse (arguments ++ [flag.name]) = .error (.unknownArgument flag.name))
      ∧ ∀ groups', Rearranged groups' groups → parse (words groups') = .ok (.run line) := by
  obtain ⟨groups, rfl, hsound, rfl⟩ := exists_groups_of_parseFrom h
  refine ⟨groups, fun groups' => ⟨fun hwords => (words_inj hwords).symm, fun e => by rw [e]⟩,
    fun files s => resolve_noting_eq_ok_iff, fun flag text rest => ?_, fun flag => ?_,
    fun groups' hre => ?_⟩
  · by_cases htext : (Group.value flag text).Sound
    · have hsound' : ∀ g ∈ groups ++ [.value flag text], g.Sound := by
        simpa [or_imp, forall_and] using ⟨hsound, htext⟩
      have hread : parseFrom {} (words (groups ++ [.value flag text]) ++ rest) = _ :=
        parseFrom_words hsound'
      rw [if_pos htext, ← hread]
      simp [parse, words, Group.words]
    · rw [parse, parseFrom_words hsound, parseFrom_value, set_of_not_sound htext, if_neg htext]
  · rw [parse, parseFrom_words hsound, parseFrom_flag_at_end]
  · have hsound' : ∀ g ∈ groups', g.Sound := fun g hg => hsound g (hre.1.mem_iff.mp hg)
    have hread : parseFrom {} (words groups' ++ []) = _ := parseFrom_words hsound'
    rw [List.append_nil, noting_of_rearranged hre] at hread
    exact hread

theorem eq_ok_of_toOption {ε α : Type} {x : Except ε α} {a : α} (h : x.toOption = some a) :
    x = .ok a := by
  cases x with
  | error e => exact absurd h (by simp [Except.toOption])
  | ok b => exact congrArg Except.ok (Option.some.inj h)

/-- A file that is named like a flag, under a flag that is given twice. -/
theorem last_flag_over_named_file :
    let arguments := ["--config", "--json-logs", "--nodes", "3", "--nodes", "5"]
    let groups := [Group.value .config "--json-logs", .value .nodes "3", .value .nodes "5"]
    let files := fun path => if path = "--json-logs"
      then Found.text "\x7b\"nodes\":7,\"runSeconds\":9\x7d" else .nothing
    ∃ line s, parse arguments = .ok (.run line) ∧ line.resolve files = .ok s
      ∧ s = { ({} : Settings) with nodes := 5, runSeconds := 9 }
      ∧ ∃ file, ConfigFile groups files file ∧ Precedence groups file s := by
  intro arguments groups files
  have hparse : parse arguments
      = .ok (.run { configPath := "--json-logs", nodes := some 5 }) :=
    eq_ok_of_toOption (by decide +kernel)
  obtain ⟨groups', hgroups, hresolve, -⟩ := groups_take_precedence hparse
  obtain rfl : groups = groups' := (hgroups groups).mp rfl
  have hs : CommandLine.resolve { configPath := "--json-logs", nodes := some 5 } files
      = .ok { nodes := 5, runSeconds := 9 } :=
    eq_ok_of_toOption (by decide +kernel)
  obtain ⟨file, hfile, hprecedence, -⟩ := (hresolve files _).mp hs
  exact ⟨_, _, hparse, hs, rfl, file, hfile, hprecedence⟩

end FleetScaler.CommandLine
