import FleetScaler.CommandLine.Basic

/-!
# Argument groups

An accepted list of arguments falls into groups in exactly one way: a flag with its value, or the
one flag that takes none. What the list says is what its groups say, and of several groups for one
flag the last one counts, so only the order of the groups of one flag matters.
-/

namespace FleetScaler.CommandLine

/-- A flag with its value, or the flag that takes none. -/
inductive Group where
  | value (flag : Flag) (text : String)
  | jsonLogs
  deriving DecidableEq, Repr

/-- The value of the flag is a number. -/
def IsNumber (flag : Flag) : Prop :=
  flag ∈ [Flag.pollInterval, .nodes, .runSeconds, .failoverAfter]

instance (flag : Flag) : Decidable (IsNumber flag) :=
  inferInstanceAs (Decidable (flag ∈ [Flag.pollInterval, .nodes, .runSeconds, .failoverAfter]))

namespace Group

/-- The arguments that make up the group. -/
def words : Group → List String
  | value flag text => [flag.name, text]
  | jsonLogs => ["--json-logs"]

/-- The value of the group is of the kind that its flag takes. -/
def Sound : Group → Prop
  | value flag text => IsNumber flag → (word? text).isSome = true
  | jsonLogs => True

instance : (group : Group) → Decidable group.Sound
  | value flag text => inferInstanceAs (Decidable (IsNumber flag → (word? text).isSome = true))
  | jsonLogs => isTrue trivial

/-- The value that the group gives to a flag, if it does. -/
def text? (flag : Flag) : Group → Option String
  | value f text => if f = flag then some text else none
  | jsonLogs => none

end Group

/-- The arguments of the groups, one group after the other. -/
def words (groups : List Group) : List String := groups.flatMap Group.words

/-- The values that the groups give to a flag, in their order. -/
def texts (groups : List Group) (flag : Flag) : List String := groups.filterMap (Group.text? flag)

/-- The last value that the groups give to a flag. -/
def lastText (groups : List Group) (flag : Flag) : Option String := (texts groups flag).getLast?

/-- The number that the last value for a flag denotes. -/
def lastNumber (groups : List Group) (flag : Flag) : Option UInt32 :=
  (lastText groups flag).bind word?

/-- What is noted after the groups, on top of what has been noted before. -/
def noting (line : CommandLine) (groups : List Group) : CommandLine where
  configPath := (lastText groups .config).getD line.configPath
  requirementsPath := (lastText groups .requirements).or line.requirementsPath
  pollIntervalMs := (lastNumber groups .pollInterval).or line.pollIntervalMs
  nodes := (lastNumber groups .nodes).or line.nodes
  runSeconds := (lastNumber groups .runSeconds).or line.runSeconds
  failoverAfterSeconds := (lastNumber groups .failoverAfter).or line.failoverAfterSeconds
  logLevel := (lastText groups .logLevel).or line.logLevel
  jsonLogs := decide (.jsonLogs ∈ groups) || line.jsonLogs

variable {flag flag' : Flag} {group : Group} {groups groups' : List Group} {line : CommandLine}
  {text argument : String} {rest : List String}

/-! ## Names of flags -/

theorem ofName?_name (flag : Flag) : Flag.ofName? flag.name = some flag := by
  cases flag <;> decide

theorem name_of_ofName? (h : Flag.ofName? argument = some flag) : flag.name = argument := by
  simpa using List.find?_some h

theorem name_ne (flag : Flag) :
    flag.name ≠ "--help" ∧ flag.name ≠ "-h" ∧ flag.name ≠ "--json-logs" := by
  cases flag <;> decide

/-! ## Single groups -/

@[simp] theorem words_nil : words [] = [] := rfl

@[simp] theorem words_cons : words (group :: groups) = group.words ++ words groups := rfl

@[simp] theorem lastText_nil : lastText [] flag = none := rfl

theorem lastText_singleton : lastText [group] flag = group.text? flag := by
  cases h : group.text? flag <;> simp [lastText, texts, h]

theorem lastText_cons (flag : Flag) :
    lastText (group :: groups) flag = (lastText groups flag).or (lastText [group] flag) := by
  rw [lastText_singleton]
  unfold lastText texts
  cases h : group.text? flag with
  | none => simp [h]
  | some text => simp [h, List.getLast?_cons, Option.or_some]

@[simp] theorem lastNumber_nil : lastNumber [] flag = none := rfl

/-- Numbers come from the last value too, as every value before it is a number. -/
theorem lastNumber_cons (hnumber : IsNumber flag) (h : ∀ g ∈ groups, g.Sound) :
    lastNumber (group :: groups) flag
      = (lastNumber groups flag).or (lastNumber [group] flag) := by
  rw [lastNumber, lastText_cons, lastNumber]
  cases hlast : lastText groups flag with
  | none => rfl
  | some text =>
      obtain ⟨g, hg, htext⟩ := List.mem_filterMap.mp (List.mem_of_getLast? hlast)
      have hsound := h g hg
      cases g with
      | jsonLogs => exact absurd htext (by simp [Group.text?])
      | value f t =>
          obtain ⟨rfl, rfl⟩ : f = flag ∧ t = text := by simpa [Group.text?] using htext
          obtain ⟨w, hw⟩ := Option.isSome_iff_exists.mp (hsound hnumber)
          simp [hw]

@[simp] theorem noting_nil : line.noting [] = line := by
  cases line
  simp [noting]

/-- Groups are noted one after the other. -/
theorem noting_cons (h : ∀ g ∈ groups, g.Sound) :
    line.noting (group :: groups) = (line.noting [group]).noting groups := by
  have hnumber : ∀ flag, IsNumber flag → ∀ old, (lastNumber (group :: groups) flag).or old
      = (lastNumber groups flag).or ((lastNumber [group] flag).or old) := by
    intro flag hflag old
    rw [lastNumber_cons hflag h, Option.or_assoc]
  have hjson : decide (Group.jsonLogs ∈ group :: groups)
      = (decide (Group.jsonLogs ∈ groups) || decide (Group.jsonLogs ∈ [group])) := by
    rw [← Bool.decide_or]
    exact decide_eq_decide.mpr (by simp [or_comm])
  have hconfig : ∀ old, (lastText (group :: groups) .config).getD old
      = (lastText groups .config).getD ((lastText [group] .config).getD old) := by
    intro old
    rw [lastText_cons]
    cases lastText groups .config <;> rfl
  unfold noting
  rw [hconfig, hjson, hnumber _ (by decide), hnumber _ (by decide), hnumber _ (by decide),
    hnumber _ (by decide), lastText_cons .requirements, lastText_cons .logLevel,
    Option.or_assoc, Option.or_assoc, Bool.or_assoc]

/-! ## Reading groups -/

theorem parseFrom_value :
    parseFrom line (flag.name :: text :: rest) = match line.set flag text with
      | .error e => .error e
      | .ok line => parseFrom line rest := by
  obtain ⟨hhelp, hshort, hjson⟩ := name_ne flag
  have hstep := parseFrom.eq_2 line _ flag text rest (ofName?_name flag)
  rw [if_neg (by simp [hhelp, hshort]), if_neg hjson] at hstep
  exact hstep

theorem parseFrom_jsonLogs :
    parseFrom line ("--json-logs" :: rest) = parseFrom { line with jsonLogs := true } rest := by
  have hnone : Flag.ofName? "--json-logs" = none := by decide
  rw [parseFrom.eq_3 line _ rest (by simp [hnone]), if_neg (by decide), if_pos rfl]

theorem noting_jsonLogs : line.noting [.jsonLogs] = { line with jsonLogs := true } := by
  simp [noting, lastNumber, lastText_singleton, Group.text?]

/-- A value of the right kind is noted. -/
theorem set_of_sound (h : (Group.value flag text).Sound) :
    line.set flag text = .ok (line.noting [.value flag text]) := by
  have hlast : ∀ f, lastText [.value flag text] f = if flag = f then some text else none :=
    fun f => lastText_singleton
  cases flag with
  | config | requirements | logLevel => simp [set, noting, lastNumber, hlast]
  | pollInterval | nodes | runSeconds | failoverAfter =>
      obtain ⟨w, hw⟩ := Option.isSome_iff_exists.mp (h (by decide))
      simp [set, number, Except.map, noting, lastNumber, hlast, hw]

/-- A value of the wrong kind is the error of its flag. -/
theorem set_of_not_sound (h : ¬ (Group.value flag text).Sound) :
    line.set flag text = .error (.invalidNumber flag) := by
  obtain ⟨hnumber, hw⟩ : IsNumber flag ∧ word? text = none := by
    simpa [Group.Sound] using h
  cases flag with
  | config | requirements | logLevel => exact absurd hnumber (by decide)
  | pollInterval | nodes | runSeconds | failoverAfter => simp [set, number, Except.map, hw]

theorem parseFrom_group (h : group.Sound) :
    parseFrom line (group.words ++ rest) = parseFrom (line.noting [group]) rest := by
  cases group with
  | jsonLogs => rw [noting_jsonLogs, ← parseFrom_jsonLogs]; rfl
  | value flag text =>
      have hread : parseFrom line (flag.name :: text :: rest) = _ := parseFrom_value
      rwa [set_of_sound h] at hread

/-- **Groups are read from left to right**, and reading goes on behind them. -/
theorem parseFrom_words (h : ∀ g ∈ groups, g.Sound) :
    parseFrom line (words groups ++ rest) = parseFrom (line.noting groups) rest := by
  induction groups generalizing line with
  | nil => simp
  | cons group groups ih =>
      have hrest : ∀ g ∈ groups, g.Sound := fun g hg => h g (List.mem_cons_of_mem _ hg)
      rw [words_cons, List.append_assoc, parseFrom_group (h group (List.mem_cons_self ..)),
        ih hrest, noting_cons hrest]

/-- **What is accepted is groups.** -/
theorem exists_groups_of_parseFrom {arguments : List String} {line' : CommandLine}
    (h : parseFrom line arguments = .ok (.run line')) :
    ∃ groups, arguments = words groups ∧ (∀ g ∈ groups, g.Sound) ∧ line' = line.noting groups := by
  fun_induction parseFrom line arguments with
  | case1 line =>
      have hline : line = line' := by simpa using h
      exact ⟨[], rfl, by simp, by rw [noting_nil, hline]⟩
  | case2 => exact absurd h (by simp)
  | case3 line rest _ ih =>
      obtain ⟨groups, rfl, hsound, rfl⟩ := ih h
      refine ⟨.jsonLogs :: groups, rfl, List.forall_mem_cons.mpr ⟨trivial, hsound⟩, ?_⟩
      rw [noting_cons hsound, noting_jsonLogs]
  | case4 => exact absurd h (by simp)
  | case5 line argument _ _ flag value rest hflag next hnext ih =>
      obtain ⟨groups, rfl, hsound, rfl⟩ := ih h
      have hvalue : (Group.value flag value).Sound := by
        refine Decidable.byContradiction fun hnot => ?_
        rw [set_of_not_sound hnot] at hnext
        exact absurd hnext (by simp)
      have hnoted : next = line.noting [.value flag value] := by
        rw [set_of_sound hvalue] at hnext
        exact (Except.ok.inj hnext).symm
      refine ⟨.value flag value :: groups, ?_, List.forall_mem_cons.mpr ⟨hvalue, hsound⟩, ?_⟩
      · rw [words_cons, Group.words, name_of_ofName? hflag]
        rfl
      · rw [noting_cons hsound, hnoted]
  | case6 => exact absurd h (by simp)

/-- **The groups of a list of arguments are settled by it.** -/
theorem words_inj (h : words groups = words groups') : groups = groups' := by
  -- the first word tells the two kinds of groups apart, and a name its flag
  have hname : ∀ f f' : Flag, f.name = f'.name → f = f' := by
    intro f f' hf
    exact Option.some.inj ((ofName?_name _).symm.trans (hf ▸ ofName?_name _))
  induction groups generalizing groups' with
  | nil =>
      cases groups' with
      | nil => rfl
      | cons group groups' => cases group <;> exact absurd h (by simp [Group.words])
  | cons group groups ih =>
      cases groups' with
      | nil => cases group <;> exact absurd h (by simp [Group.words])
      | cons group' groups' =>
          cases group with
          | jsonLogs =>
              cases group' with
              | jsonLogs => rw [ih (List.cons.inj h).2]
              | value flag text => exact absurd (List.cons.inj h).1.symm (name_ne _).2.2
          | value flag text =>
              cases group' with
              | jsonLogs => exact absurd (List.cons.inj h).1 (name_ne _).2.2
              | value flag' text' =>
                  obtain ⟨hflag, hrest⟩ := List.cons.inj h
                  obtain ⟨rfl, hwords⟩ := List.cons.inj hrest
                  rw [hname _ _ hflag, ih hwords]

/-- A flag that takes a value is an unknown argument where the list ends behind it. -/
theorem parseFrom_flag_at_end :
    parseFrom line [flag.name] = .error (.unknownArgument flag.name) := by
  obtain ⟨hhelp, hshort, hjson⟩ := name_ne flag
  rw [parseFrom.eq_3 line _ [] (by simp), if_neg (by simp [hhelp, hshort]), if_neg hjson]

/-! ## The order of groups -/

/-- The same groups, with those of each flag in the same order. -/
def Rearranged (groups groups' : List Group) : Prop :=
  groups.Perm groups' ∧ ∀ flag, texts groups flag = texts groups' flag

/-- **Only the order of the groups of one flag matters.** -/
theorem noting_of_rearranged (h : Rearranged groups groups') :
    line.noting groups = line.noting groups' := by
  have hlast : ∀ flag, lastText groups flag = lastText groups' flag := by
    intro flag
    rw [lastText, lastText, h.2 flag]
  have hjson : decide (Group.jsonLogs ∈ groups) = decide (Group.jsonLogs ∈ groups') :=
    decide_eq_decide.mpr h.1.mem_iff
  simp only [noting, lastNumber, hlast, hjson]

end FleetScaler.CommandLine
