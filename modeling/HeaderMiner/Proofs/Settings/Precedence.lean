import HeaderMiner.Proofs.Checks
import HeaderMiner.Proofs.Settings.Keys
import HeaderMiner.Settings.Load
/-!
# Which value of a setting prevails

A setting can be given on the command line, in the environment and in a file, and has values for
the case that it is left out: a text for the command line, and another value for files.  The two
tables say the same (`Setting.omitted?_eq`, `Setting.unlisted?_eq`), and the options are found again
under the keys of their settings when a file is merged in.  So each setting takes the first value
that is given for it, whatever is given for the others, and a file without any of the keys is as
good as none (`Sources.load_prevails`).
-/

namespace HeaderMiner

/-! ## settings that are left out -/

theorem Setting.omitted?_eq (s : Setting) : s.omitted? = some s.builtIn := by
  cases s <;> decide +kernel

theorem Setting.unlisted?_eq (s : Setting) : s.unlisted? = some s.builtIn := by
  cases s <;> rfl

theorem Given.fill?_eq {table : (s : Setting) → Option s.Value}
    (ht : ∀ s, table s = some s.builtIn) (g : Given) : g.fill? table = some g.complete := by
  have hs (s : Setting) : (g s).or (table s) = some (g.complete s) := by
    rw [ht, complete]
    cases g s <;> rfl
  unfold fill?
  rw [dif_pos fun s => by rw [hs]; rfl]
  refine congrArg some (funext fun s => ?_)
  exact Option.get_of_eq_some _ (hs s)

/-! ## the environment -/

/-- the text of a setting's variable, if it has one that is set -/
def Setting.variableText? (environment : String → Option String) (s : Setting) : Option String :=
  s.variable?.bind environment

namespace Given

/-- the values of the first choice, and where it has none those of the second -/
def orElse (g h : Given) : Given := fun s => (g s).or (h s)

theorem orElse_empty (g : Given) : g.orElse .empty = g := funext fun s => Option.or_none (o := g s)

/-- the values of the variables that are set and can be read -/
def ofEnvironment (environment : String → Option String) : Given :=
  fun s => (s.variableText? environment).bind s.kind.ofArgument?

variable {environment : String → Option String} {g g' : Given} {s : Setting}

/-- whether the variable of a setting can be read, if it is set and the setting is not given -/
def ReadsVariable (environment : String → Option String) (g : Given) (s : Setting) : Prop :=
  g s = none → ∀ text, s.variableText? environment = some text → ∃ v, s.kind.ofArgument? text = some v

/-- what is given, and the values of some variables for what is not -/
def withVariables (environment : String → Option String) (g : Given) (ss : List Setting) : Given :=
  fun t => if t ∈ ss then (g t).or (ofEnvironment environment t) else g t

theorem withVariables_eq_self {ss : List Setting}
    (h : ∀ t ∈ ss, (g t).or (ofEnvironment environment t) = g t) :
    g.withVariables environment ss = g := by
  funext t
  unfold withVariables
  split
  · next ht => exact h t ht
  · rfl

theorem addVariable_eq_ok_iff :
    g.addVariable environment s = .ok g' ↔
      g.ReadsVariable environment s ∧ g' = g.withVariables environment [s] := by
  have ok {h : Given} (hr : g.ReadsVariable environment s)
      (hg : h = g.withVariables environment [s]) :
      (Except.ok h : Except Refusal Given) = .ok g' ↔
        g.ReadsVariable environment s ∧ g' = g.withVariables environment [s] := by
    rw [← hg]
    exact ⟨fun he => ⟨hr, (Except.ok.inj he).symm⟩, fun he => congrArg Except.ok he.2.symm⟩
  -- without a text there is nothing to be read
  have silent (hv : s.variableText? environment = none) :
      (Except.ok g : Except Refusal Given) = .ok g' ↔
        g.ReadsVariable environment s ∧ g' = g.withVariables environment [s] := by
    refine ok (fun _ text ht => ?_) (withVariables_eq_self fun t ht => ?_).symm
    · rw [hv] at ht
      cases ht
    · obtain rfl := List.mem_singleton.1 ht
      rw [ofEnvironment, hv, Option.bind_none, Option.or_none]
  unfold addVariable
  split
  · next hs =>
    obtain ⟨v, hv⟩ := Option.isSome_iff_exists.1 hs
    refine ok (fun hn => ?_) (withVariables_eq_self fun t ht => ?_).symm
    · rw [hv] at hn
      cases hn
    · obtain rfl := List.mem_singleton.1 ht
      rw [hv, Option.some_or]
  · next hs =>
    have hn : g s = none := by simpa using hs
    split
    · next hv => exact silent (by rw [Setting.variableText?, hv, Option.bind_none])
    · next name hv =>
      have htext : s.variableText? environment = environment name := by
        rw [Setting.variableText?, hv, Option.bind_some]
      split
      · next he => exact silent (htext.trans he)
      · next text he =>
        rw [he] at htext
        split
        · next v hread =>
          refine ok (fun _ text' ht => ?_) (funext fun t => ?_)
          · obtain rfl : text = text' := Option.some.inj (htext.symm.trans ht)
            exact ⟨v, hread⟩
          · by_cases hts : t = s
            · subst hts
              rw [set_self, withVariables, if_pos (List.mem_singleton_self _), hn, Option.none_or,
                ofEnvironment, htext, Option.bind_some, hread]
            · rw [set_of_ne g v (Ne.symm hts), withVariables,
                if_neg fun hm => hts (List.mem_singleton.1 hm)]
        · next hread =>
          refine iff_of_false nofun fun ⟨hr, _⟩ => ?_
          obtain ⟨v, hv⟩ := hr hn text htext
          rw [hread] at hv
          cases hv

theorem foldlM_addVariable_eq_ok_iff {ss : List Setting} (hn : ss.Nodup) :
    ss.foldlM (addVariable environment) g = .ok g' ↔
      (∀ s ∈ ss, g.ReadsVariable environment s) ∧ g' = g.withVariables environment ss := by
  induction ss generalizing g with
  | nil =>
    have hg : g.withVariables environment [] = g := withVariables_eq_self nofun
    rw [hg]
    exact ⟨fun h => ⟨nofun, (Except.ok.inj h).symm⟩, fun h => congrArg Except.ok h.2.symm⟩
  | cons s ss ih =>
    obtain ⟨hs, hn⟩ := List.nodup_cons.1 hn
    have hkeep (t : Setting) (ht : t ∈ ss) : g.withVariables environment [s] t = g t :=
      if_neg fun hm => hs (by rwa [List.mem_singleton.1 hm] at ht)
    have hreads : (∀ t ∈ ss, (g.withVariables environment [s]).ReadsVariable environment t) ↔
        ∀ t ∈ ss, g.ReadsVariable environment t := by
      refine forall₂_congr fun t ht => ?_
      rw [ReadsVariable, ReadsVariable, hkeep t ht]
    have hboth : (g.withVariables environment [s]).withVariables environment ss =
        g.withVariables environment (s :: ss) := by
      funext t
      by_cases ht : t ∈ ss
      · rw [withVariables, if_pos ht, hkeep t ht, withVariables, if_pos (List.mem_cons_of_mem _ ht)]
      · rw [withVariables, if_neg ht]
        simp [withVariables, ht]
    rw [List.foldlM_cons, bind_eq_ok_iff]
    constructor
    · rintro ⟨g₁, h₁, h⟩
      obtain ⟨hr, rfl⟩ := addVariable_eq_ok_iff.1 h₁
      obtain ⟨hrs, rfl⟩ := (ih hn).1 h
      exact ⟨List.forall_mem_cons.2 ⟨hr, hreads.1 hrs⟩, hboth⟩
    · rintro ⟨hrs, rfl⟩
      obtain ⟨hr, hrs⟩ := List.forall_mem_cons.1 hrs
      exact ⟨_, addVariable_eq_ok_iff.2 ⟨hr, rfl⟩, (ih hn).2 ⟨hreads.2 hrs, hboth.symm⟩⟩

theorem addEnvironment_eq_ok_iff :
    g.addEnvironment environment = .ok g' ↔
      (∀ s, g.ReadsVariable environment s) ∧ g' = g.orElse (ofEnvironment environment) := by
  have hall : g.withVariables environment Setting.all = g.orElse (ofEnvironment environment) :=
    funext fun s => if_pos (Setting.mem_all s)
  rw [addEnvironment, foldlM_addVariable_eq_ok_iff (by decide), hall]
  exact and_congr_left' ⟨fun h s => h s (Setting.mem_all s), fun h s _ => h s⟩

end Given

/-! ## options -/

namespace CommandLine

variable {l : CommandLine} {environment : String → Option String} {o : Options}

/-- what is given on the command line or in the environment -/
def spoken (l : CommandLine) (environment : String → Option String) : Given :=
  l.given.orElse (.ofEnvironment environment)

def origin (l : CommandLine) (environment : String → Option String) (s : Setting) : Origin :=
  if (l.given s).isSome then .commandLine
  else if (l.spoken environment s).isSome then .environment
  else .builtIn

theorem options_eq_ok_iff :
    l.options environment = .ok o ↔
      (∀ s, l.given.ReadsVariable environment s) ∧
        o = ⟨(l.spoken environment).complete, l.origin environment⟩ := by
  rw [options, bind_eq_ok_iff]
  constructor
  · rintro ⟨g, hg, h⟩
    obtain ⟨hr, rfl⟩ := Given.addEnvironment_eq_ok_iff.1 hg
    rw [Given.fill?_eq Setting.omitted?_eq] at h
    exact ⟨hr, (Except.ok.inj h).symm⟩
  · rintro ⟨hr, rfl⟩
    refine ⟨_, Given.addEnvironment_eq_ok_iff.2 ⟨hr, rfl⟩, ?_⟩
    rw [Given.fill?_eq Setting.omitted?_eq]
    rfl

/-- an option counts as given, under the key of its setting, exactly if it is -/
theorem isGiven_key (values : Settings) (s : Setting) :
    (Options.mk values (l.origin environment)).isGiven s.key = (l.spoken environment s).isSome := by
  have hspoken (hl : (l.given s).isSome = true) : (l.spoken environment s).isSome = true := by
    obtain ⟨v, hv⟩ := Option.isSome_iff_exists.1 hl
    rw [spoken, Given.orElse, hv]
    rfl
  rw [Options.isGiven, Options.origin?, Setting.ofKey?_key, Option.map_some]
  dsimp only
  rw [origin]
  by_cases hl : (l.given s).isSome = true
  · rw [if_pos hl, hspoken hl]
  · rw [if_neg hl]
    by_cases he : (l.spoken environment s).isSome = true
    · rw [if_pos he, he]
    · rw [if_neg he, Bool.eq_false_iff.2 he]

/-- options that are merged with a file let it speak where they are not given -/
theorem merge_eq (h : l.options environment = .ok o) (g : Given) :
    o.merge g.complete = ((l.spoken environment).orElse g).complete := by
  obtain ⟨-, rfl⟩ := options_eq_ok_iff.1 h
  funext s
  show (if _ then ((l.spoken environment s).getD s.builtIn) else (g s).getD s.builtIn) =
    ((l.spoken environment s).or (g s)).getD s.builtIn
  rw [isGiven_key]
  cases l.spoken environment s <;> rfl

end CommandLine

/-! ## loading -/

theorem Settings.ofFile_eq_ok_iff {path text : String} {c : Settings} :
    Settings.ofFile path text = .ok c ↔ ∃ g, Given.ofText? path text = some g ∧ c = g.complete := by
  unfold ofFile
  cases Given.ofText? path text with
  | none =>
    refine iff_of_false nofun ?_
    rintro ⟨_, h, _⟩
    cases h
  | some g =>
    rw [Option.bind_some, Given.fill?_eq Setting.unlisted?_eq]
    constructor
    · intro h
      exact ⟨g, rfl, (Except.ok.inj h).symm⟩
    · rintro ⟨_, h, rfl⟩
      cases h
      rfl

namespace Sources

variable {s : Sources} {line : CommandLine} {t : Setting}

/-- what the configuration file has for a setting, if one is named and has anything: the value that
is read there, if there is one -/
def inFile? (s : Sources) (line : CommandLine) (t : Setting) : Option (Option t.Value) :=
  line.configFile.bind fun path =>
    match s.file path with
    | .ok text => t.inText? path text
    | .error _ => none

/-- whether all can be read that a command line asks for: the variables of what it does not give
itself, and the file that it names -/
structure Reads (s : Sources) (line : CommandLine) : Prop where
  environment : ∀ t, line.given.ReadsVariable s.environment t
  file : ∀ path, line.configFile = some path →
    ∃ text g, s.file path = .ok text ∧ Given.ofText? path text = some g

/-- the value of a setting that prevails: the one on the command line, else the one in the
environment, else the one in the file, else the built-in one -/
inductive Prevails (s : Sources) (line : CommandLine) (t : Setting) : t.Value → Prop where
  | commandLine {v} (given : line.given t = some v) : Prevails s line t v
  | environment {text v} (missing : line.given t = none)
      (text_eq : t.variableText? s.environment = some text)
      (read : t.kind.ofArgument? text = some v) : Prevails s line t v
  | file {v} (missing : line.given t = none) (unset : t.variableText? s.environment = none)
      (listed : s.inFile? line t = some (some v)) : Prevails s line t v
  | builtIn (missing : line.given t = none) (unset : t.variableText? s.environment = none)
      (unlisted : s.inFile? line t = none) : Prevails s line t t.builtIn

/-- which value prevails depends on what is said of the setting, and on nothing else -/
theorem Prevails.congr {s' : Sources} {line' : CommandLine} {v : t.Value}
    (h : s.Prevails line t v) (hgiven : line.given t = line'.given t)
    (htext : t.variableText? s.environment = t.variableText? s'.environment)
    (hfile : s.inFile? line t = s'.inFile? line' t) : s'.Prevails line' t v := by
  cases h with
  | commandLine given => exact .commandLine (hgiven.symm.trans given)
  | environment missing text_eq read =>
    exact .environment (hgiven.symm.trans missing) (htext.symm.trans text_eq) read
  | file missing unset listed =>
    exact .file (hgiven.symm.trans missing) (htext.symm.trans unset) (hfile.symm.trans listed)
  | builtIn missing unset unlisted =>
    exact .builtIn (hgiven.symm.trans missing) (htext.symm.trans unset)
      (hfile.symm.trans unlisted)

def fromFile (s : Sources) (line : CommandLine) : Given := fun t => (s.inFile? line t).join

def prevailing (s : Sources) (line : CommandLine) : Settings :=
  ((line.spoken s.environment).orElse (s.fromFile line)).complete

theorem inFile?_eq (hr : s.Reads line) : s.inFile? line t = (s.fromFile line t).map some := by
  rw [fromFile, inFile?]
  cases hp : line.configFile with
  | none => rfl
  | some path =>
    obtain ⟨text, g, hfile, hg⟩ := hr.file path hp
    rw [Option.bind_some, hfile]
    dsimp only
    rw [Given.map_ofText? hg]
    cases g t <;> rfl

theorem prevails_iff (hr : s.Reads line) {v : t.Value} :
    s.Prevails line t v ↔ v = s.prevailing line t := by
  have hdef : s.prevailing line t = (((line.given t).or
      ((t.variableText? s.environment).bind t.kind.ofArgument?)).or
        (s.inFile? line t).join).getD t.builtIn := rfl
  rw [hdef]
  constructor
  · intro h
    cases h with
    | commandLine given => rw [given]; rfl
    | environment missing text_eq read => rw [missing, text_eq, Option.bind_some, read]; rfl
    | file missing unset listed => rw [missing, unset, listed]; rfl
    | builtIn missing unset unlisted => rw [missing, unset, unlisted]; rfl
  · rintro rfl
    cases hg : line.given t with
    | some v => exact .commandLine hg
    | none =>
      cases he : t.variableText? s.environment with
      | some text =>
        obtain ⟨v, hv⟩ := hr.environment t hg text he
        rw [Option.bind_some, hv]
        exact .environment hg he hv
      | none =>
        have hfile : s.inFile? line t = (s.fromFile line t).map some := inFile?_eq hr
        cases hf : s.fromFile line t with
        | none =>
          rw [hf] at hfile
          rw [hfile]
          exact .builtIn hg he hfile
        | some v =>
          rw [hf] at hfile
          rw [hfile]
          exact .file hg he hfile

theorem fromFile_of_none (h : line.configFile = none) : s.fromFile line = .empty := by
  funext t
  rw [fromFile, inFile?, h]
  rfl

theorem fromFile_of_some {path text : String} {g : Given} (h : line.configFile = some path)
    (hfile : s.file path = .ok text) (hg : Given.ofText? path text = some g) :
    s.fromFile line = g := by
  funext t
  rw [fromFile, inFile?, h, Option.bind_some, hfile]
  dsimp only
  rw [Given.map_ofText? hg]
  cases g t <;> rfl

theorem join_eq {o : Options} (ho : line.options s.environment = .ok o) (hr : s.Reads line) :
    s.join o line.configFile = .ok (s.prevailing line) := by
  cases hp : line.configFile with
  | none =>
    obtain ⟨-, rfl⟩ := CommandLine.options_eq_ok_iff.1 ho
    rw [prevailing, fromFile_of_none hp, Given.orElse_empty]
    rfl
  | some path =>
    obtain ⟨text, g, hfile, hg⟩ := hr.file path hp
    have hread : s.readFile path = .ok g.complete := by
      rw [readFile, hfile]
      exact Settings.ofFile_eq_ok_iff.2 ⟨g, hg, rfl⟩
    show (s.readFile path).map o.merge = _
    rw [hread, prevailing, fromFile_of_some hp hfile hg, ← CommandLine.merge_eq ho]
    rfl

/-- what is loaded is what prevails, if it is accepted -/
theorem load_eq (hline : CommandLine.read s.arguments = .ok line) (hr : s.Reads line) :
    s.load = ((s.prevailing line).validate.mapError LoadFault.failed).map
      fun _ => ⟨s.prevailing line, line.printConfig⟩ := by
  have ho : line.options s.environment =
      .ok ⟨(line.spoken s.environment).complete, line.origin s.environment⟩ :=
    CommandLine.options_eq_ok_iff.2 ⟨hr.environment, rfl⟩
  have h1 := mapError_eq_ok_iff (f := LoadFault.refused) |>.2 hline
  have h2 := mapError_eq_ok_iff (f := LoadFault.refused) |>.2 ho
  have h3 := mapError_eq_ok_iff (f := LoadFault.failed) |>.2 (join_eq ho hr)
  unfold load
  simp only [h1, h2, h3, bind, Except.bind]
  cases (s.prevailing line).validate <;> rfl

theorem reads_of_load {l : Loaded} (h : s.load = .ok l) :
    ∃ line, CommandLine.read s.arguments = .ok line ∧ s.Reads line := by
  unfold load at h
  obtain ⟨line, hline, h⟩ := bind_eq_ok_iff.1 h
  obtain ⟨o, ho, h⟩ := bind_eq_ok_iff.1 h
  obtain ⟨c, hc, -⟩ := bind_eq_ok_iff.1 h
  obtain ⟨hr, -⟩ := CommandLine.options_eq_ok_iff.1 (mapError_eq_ok_iff.1 ho)
  refine ⟨line, mapError_eq_ok_iff.1 hline, hr, ?_⟩
  intro path hp
  rw [hp] at hc
  have hc : (s.readFile path).map o.merge = .ok c := mapError_eq_ok_iff.1 hc
  cases hread : s.readFile path with
  | error e =>
    rw [hread] at hc
    cases hc
  | ok file =>
    unfold readFile at hread
    split at hread
    · next text hfile =>
      obtain ⟨g, hg, -⟩ := Settings.ofFile_eq_ok_iff.1 hread
      exact ⟨text, g, hfile, hg⟩
    · cases hread

/-- whether a file's text is a mapping without members -/
def IsEmptyMapping (path text : String) : Prop :=
  if isJsonPath path then Json.Tree.parse? text = some (.object [])
  else Yaml.Node.parse? text = some (.mapping [])

theorem ofText?_of_isEmptyMapping {path text : String} (h : IsEmptyMapping path text) :
    Given.ofText? path text = some .empty := by
  unfold IsEmptyMapping at h
  unfold Given.ofText?
  split at h
  · next hp =>
    rw [if_pos hp, h]
    rfl
  · next hp =>
    rw [if_neg hp, h]
    rfl

example : ((Json.Tree.parse? "\x7b\x7d") matches some (.object [])) = true := by decide +kernel
example : ((Yaml.Node.parse? "\x7b\x7d\n") matches some (.mapping [])) = true := by decide +kernel

/-- a file without any key changes nothing, whatever else there is to load -/
theorem load_of_isEmptyMapping {s' : Sources} {path text : String}
    (hline : CommandLine.read s.arguments = .ok line) (hnone : line.configFile = none)
    (hline' : CommandLine.read s'.arguments = .ok { line with configFile := some path })
    (henv : s'.environment = s.environment) (hfile : s'.file path = .ok text)
    (hempty : IsEmptyMapping path text) : s'.load = s.load := by
  have hoptions : CommandLine.options { line with configFile := some path } s.environment =
      line.options s.environment := rfl
  have hread : s'.readFile path = .ok Given.empty.complete := by
    rw [readFile, hfile]
    exact Settings.ofFile_eq_ok_iff.2 ⟨_, ofText?_of_isEmptyMapping hempty, rfl⟩
  unfold load
  rw [hline, hline', henv]
  show ((line.options s.environment).mapError LoadFault.refused >>= _) =
    ((line.options s.environment).mapError LoadFault.refused >>= _)
  cases ho : line.options s.environment with
  | error r => rfl
  | ok o =>
    have hmerge : o.merge Given.empty.complete = o.values := by
      rw [CommandLine.merge_eq ho, Given.orElse_empty]
      obtain ⟨-, rfl⟩ := CommandLine.options_eq_ok_iff.1 ho
      rfl
    have hjoin : s'.join o (some path) = s.join o line.configFile := by
      rw [hnone]
      show (s'.readFile path).map o.merge = .ok o.values
      rw [hread, ← hmerge]
      rfl
    show ((s'.join o (some path)).mapError LoadFault.failed >>= _) =
      ((s.join o line.configFile).mapError LoadFault.failed >>= _)
    rw [hjoin]

/-- Whatever is loaded is, for each setting by itself, the value on the command line, else the one in
the environment, else the one in the file, else the built-in one; this alone is checked, and if it
is not accepted nothing is loaded.  A setting for which two sources say the same comes out the same,
whatever they say of others, and a file that is an empty mapping leaves all as it is without it. -/
theorem load_prevails (s : Sources) :
    (∀ line, CommandLine.read s.arguments = .ok line → s.Reads line →
      ∃ c : Settings, (∀ t v, s.Prevails line t v ↔ v = c t) ∧
        s.load = (c.validate.mapError LoadFault.failed).map fun _ => ⟨c, line.printConfig⟩) ∧
    (∀ l, s.load = .ok l → ∃ line, CommandLine.read s.arguments = .ok line ∧ s.Reads line ∧
      ∀ t, s.Prevails line t (l.settings t)) ∧
    (∀ (s' : Sources) line line' l l' t, CommandLine.read s.arguments = .ok line →
      CommandLine.read s'.arguments = .ok line' → s.load = .ok l → s'.load = .ok l' →
      line.given t = line'.given t →
      t.variableText? s.environment = t.variableText? s'.environment →
      s.inFile? line t = s'.inFile? line' t → l.settings t = l'.settings t) ∧
    ∀ (s' : Sources) line path text, CommandLine.read s.arguments = .ok line →
      line.configFile = none →
      CommandLine.read s'.arguments = .ok { line with configFile := some path } →
      s'.environment = s.environment → s'.file path = .ok text → IsEmptyMapping path text →
      s'.load = s.load := by
  have hload {s : Sources} {l : Loaded} (h : s.load = .ok l) :
      ∃ line, CommandLine.read s.arguments = .ok line ∧ s.Reads line ∧
        l.settings = s.prevailing line := by
    obtain ⟨line, hline, hr⟩ := reads_of_load h
    rw [load_eq hline hr] at h
    refine ⟨line, hline, hr, ?_⟩
    cases hv : (s.prevailing line).validate with
    | error e =>
      rw [hv] at h
      cases h
    | ok _ =>
      rw [hv] at h
      cases h
      rfl
  refine ⟨?_, ?_, ?_, ?_⟩
  · intro line hline hr
    exact ⟨s.prevailing line, fun t v => prevails_iff hr, load_eq hline hr⟩
  · intro l h
    obtain ⟨line, hline, hr, hl⟩ := hload h
    exact ⟨line, hline, hr, fun t => (prevails_iff hr).2 (congrFun hl t)⟩
  · intro s' line line' l l' t hline hline' h h' hgiven htext hfile
    obtain ⟨k, hk, hr, hl⟩ := hload h
    obtain ⟨k', hk', hr', hl'⟩ := hload h'
    obtain rfl : line = k := Except.ok.inj (hline.symm.trans hk)
    obtain rfl : line' = k' := Except.ok.inj (hline'.symm.trans hk')
    have hp : s'.Prevails line' t (s.prevailing line t) :=
      ((prevails_iff hr).2 rfl).congr hgiven htext hfile
    rw [hl, hl']
    exact (prevails_iff hr').1 hp
  · intro s' line path text hline hnone hline' henv hfile hempty
    exact load_of_isEmptyMapping hline hnone hline' henv hfile hempty

namespace Trial

/-- a range on the command line, a network in the environment, and both with a host in the file -/
def sources : Sources where
  arguments := ["--config-file=miner.json", "-r", "7"]
  environment := fun name => if name = "HS_NETWORK" then some "regtest" else none
  file := fun _ => .ok "\x7b\"range\": 9, \"network\": \"simnet\", \"host\": \"node\"\x7d"

def asked : CommandLine := ⟨Given.empty.set .range (7 : UInt32), some "miner.json", false⟩

theorem read_arguments : CommandLine.read sources.arguments = .ok asked := rfl

theorem reads : sources.Reads asked where
  environment t _ text ht := by
    cases t with
    | network =>
      have hset : Setting.variableText? sources.environment .network = some "regtest" := rfl
      obtain rfl : "regtest" = text := Option.some.inj (hset.symm.trans ht)
      exact ⟨Network.regtest, rfl⟩
    | pass =>
      have hunset : Setting.variableText? sources.environment .pass = none := by decide +kernel
      rw [hunset] at ht
      cases ht
    | _ => cases ht
  file path hp := by
    cases hp
    have hg : (Given.ofText? "miner.json"
        "\x7b\"range\": 9, \"network\": \"simnet\", \"host\": \"node\"\x7d").isSome = true := by
      decide +kernel
    obtain ⟨g, hg⟩ := Option.isSome_iff_exists.1 hg
    exact ⟨_, g, rfl, hg⟩

end Trial

/-- each of the four ranks has a setting of its own -/
theorem load_prevails_given : ∃ c : Settings,
    Trial.sources.load = (c.validate.mapError LoadFault.failed).map (fun _ => ⟨c, false⟩) ∧
    c .range = (7 : UInt32) ∧ c .network = Network.regtest ∧ c .host = "node" ∧
    c .user = "hnsrpc" := by
  obtain ⟨hall, -⟩ := load_prevails Trial.sources
  obtain ⟨c, hc, hload⟩ := hall _ Trial.read_arguments Trial.reads
  refine ⟨c, hload, ?_, ?_, ?_, ?_⟩
  · exact ((hc .range _).1 (.commandLine rfl)).symm
  · exact ((hc .network _).1 (.environment rfl rfl rfl)).symm
  · exact ((hc .host _).1 (.file rfl rfl (by decide +kernel))).symm
  · exact ((hc .user _).1 (.builtIn rfl rfl (by decide +kernel))).symm

end Sources

end HeaderMiner
