import HeaderMiner.Settings.File
/-!
# Keys of a configuration file

A file is read member by member, and a member whose key is that of a setting is taken only if the
setting has none yet.  So what is read of a setting is what stands under its key, and nothing if the
key is not there (`Given.map_ofText?`); no other member has a say in it.
-/

namespace HeaderMiner

namespace Setting

theorem ofKey?_eq_some_iff {k : String} {s : Setting} : ofKey? k = some s ↔ s.key = k := by
  constructor
  · intro h
    simpa using List.find?_some h
  · rintro rfl
    exact ofKey?_key s

theorem key_ne_of_ofKey? {k : String} {s : Setting} (h : ofKey? k ≠ some s) : (k == s.key) = false := by
  rw [beq_eq_false_iff_ne]
  exact fun hk => h (ofKey?_eq_some_iff.2 hk.symm)

end Setting

/-! ## what stands under a key -/

/-- what a JSON file has for a setting: what stands under its key, or in its place in a list -/
def Json.Tree.under? (t : Tree) (s : Setting) : Option Tree :=
  match t with
  | .object members => (members.find? fun m => m.1 == s.key).map (·.2)
  | .array items => ((Setting.all.zip items).find? fun m => m.1 == s).map (·.2)
  | _ => none

/-- what a YAML file has under the key of a setting -/
def Yaml.Node.under? (n : Node) (s : Setting) : Option Node :=
  match n with
  | .mapping members => (members.find? fun m => m.1.text? == some s.key).map (·.2)
  | _ => none

/-- what a file's text has for a setting, if it has anything: the value that is read there, if there
is one -/
def Setting.inText? (s : Setting) (path text : String) : Option (Option s.Value) :=
  if isJsonPath path then ((Json.Tree.parse? text).bind (·.under? s)).map s.kind.ofJson?
  else ((Yaml.Node.parse? text).bind (·.under? s)).map s.kind.ofYaml?

namespace Given

variable {α β : Type} {read : (k : Kind) → α → Option k.Value} {g g' : Given}

/-! ## members -/

theorem addMember_eq_some {k : String} {a : α} (h : g.addMember read k a = some g') :
    (∀ s, (k == Setting.key s) = false) ∧ g' = g ∨
      ∃ s v, s.key = k ∧ g s = none ∧ read s.kind a = some v ∧ g' = g.set s v := by
  unfold addMember at h
  cases hk : Setting.ofKey? k with
  | none =>
    rw [hk] at h
    have hne (s : Setting) : Setting.ofKey? k ≠ some s := by simp [hk]
    exact .inl ⟨fun s => Setting.key_ne_of_ofKey? (hne s), (Option.some.inj h).symm⟩
  | some s =>
    rw [hk] at h
    dsimp only at h
    split at h
    · cases h
    · next hs =>
      obtain ⟨v, hv, rfl⟩ := Option.map_eq_some_iff.1 h
      exact .inr ⟨s, v, Setting.ofKey?_eq_some_iff.1 hk, by simpa using hs, hv, rfl⟩

theorem foldlM_addMember (key : β → Option String) (value : β → α) {ms : List β}
    (h : ms.foldlM (fun g m => (key m).bind fun k => g.addMember read k (value m)) g = some g')
    (s : Setting) :
    (∀ v, g s = some v → g' s = some v) ∧
      (g s = none → ((ms.find? fun m => key m == some s.key).map fun m => read s.kind (value m))
        = (g' s).map some) := by
  induction ms generalizing g with
  | nil =>
    obtain rfl := Option.some.inj h
    refine ⟨fun _ => id, fun hs => ?_⟩
    rw [hs]
    rfl
  | cons m ms ih =>
    rw [List.foldlM_cons] at h
    obtain ⟨g₁, h₁, h⟩ := Option.bind_eq_some_iff.1 h
    obtain ⟨k, hk, h₁⟩ := Option.bind_eq_some_iff.1 h₁
    obtain ⟨stays, later⟩ := ih h
    rw [List.find?_cons, hk, Option.some_beq_some]
    rcases addMember_eq_some h₁ with ⟨hne, rfl⟩ | ⟨t, v, rfl, ht, hv, rfl⟩
    · rw [hne s]
      exact ⟨stays, later⟩
    · by_cases hts : t = s
      · subst hts
        refine ⟨fun w hw => ?_, fun _ => ?_⟩
        · rw [ht] at hw
          cases hw
        · rw [beq_self_eq_true, stays v (set_self ..)]
          exact congrArg some hv
      · have hkey : (t.key == s.key) = false := by
          refine Setting.key_ne_of_ofKey? ?_
          rw [Setting.ofKey?_key]
          exact fun he => hts (Option.some.inj he)
        rw [set_of_ne g v hts] at stays later
        rw [hkey]
        exact ⟨stays, later⟩

/-- the values of a list go to the settings of their places, each of which is there once -/
theorem foldlM_addItem {ms : List (Setting × Json.Tree)} (hn : (ms.map Prod.fst).Nodup)
    (h : ms.foldlM (fun g m => g.addItem m.1 m.2) g = some g') (s : Setting) :
    (ms.find? fun m => m.1 == s) = none ∧ g' s = g s ∨
      ∃ m v, (ms.find? fun m => m.1 == s) = some m ∧ s.kind.ofJson? m.2 = some v ∧ g' s = some v := by
  induction ms generalizing g with
  | nil =>
    obtain rfl := Option.some.inj h
    exact .inl ⟨rfl, rfl⟩
  | cons m ms ih =>
    obtain ⟨t, a⟩ := m
    obtain ⟨hnew, hn⟩ := List.nodup_cons.1 hn
    rw [List.foldlM_cons] at h
    obtain ⟨g₁, h₁, h⟩ := Option.bind_eq_some_iff.1 h
    obtain ⟨v, hv, rfl⟩ := Option.map_eq_some_iff.1 h₁
    rw [List.find?_cons]
    by_cases hts : t = s
    · subst hts
      have hfirst : (ms.find? fun m => m.1 == t) = none := by
        rw [List.find?_eq_none]
        intro m hm he
        exact hnew (List.mem_map.2 ⟨m, hm, by simpa using he⟩)
      rcases ih hn h with ⟨_, hg⟩ | ⟨m, _, hm, _⟩
      · rw [set_self] at hg
        refine .inr ⟨(t, a), v, ?_, hv, hg⟩
        simp
      · rw [hfirst] at hm
        cases hm
    · have hne : (t == s) = false := beq_eq_false_iff_ne.2 hts
      rw [← set_of_ne g v hts]
      dsimp only
      rw [hne]
      exact ih hn h

/-! ## files -/

theorem places_sublist (ss : List Setting) (items : List Json.Tree) :
    ((ss.zip items).map Prod.fst).Sublist ss := by
  induction ss generalizing items with
  | nil => exact List.Sublist.refl []
  | cons s ss ih =>
    cases items with
    | nil => exact List.nil_sublist _
    | cons t items => exact (ih items).cons_cons s

theorem map_ofJson? {t : Json.Tree} (h : ofJson? t = some g) (s : Setting) :
    (t.under? s).map s.kind.ofJson? = (g s).map some := by
  unfold ofJson? at h
  split at h
  · next members =>
    have hs := (foldlM_addMember (fun m => some m.1) Prod.snd h s).2 rfl
    rw [Json.Tree.under?, Option.map_map]
    simp only [Option.some_beq_some] at hs
    exact hs
  · next items =>
    have hall : Setting.all.Nodup := by decide
    split at h
    · rcases foldlM_addItem (hall.sublist (places_sublist _ items)) h s with
        ⟨hm, hg⟩ | ⟨m, v, hm, hv, hg⟩
      · rw [Json.Tree.under?, hm, hg]
        rfl
      · rw [Json.Tree.under?, hm, hg]
        exact congrArg some hv
    · cases h
  · cases h

theorem map_ofYaml? {n : Yaml.Node} (h : ofYaml? n = some g) (s : Setting) :
    (n.under? s).map s.kind.ofYaml? = (g s).map some := by
  unfold ofYaml? at h
  split at h
  · next members =>
    have hs := (foldlM_addMember (fun m : Yaml.Node × Yaml.Node => m.1.text?) Prod.snd h s).2 rfl
    rw [Yaml.Node.under?, Option.map_map]
    exact hs
  · next hno =>
    split at h
    · obtain rfl := Option.some.inj h
      cases n with
      | mapping members => exact absurd rfl (hno members)
      | _ => rfl
    · cases h

/-- what a file gives is what it has under the keys of settings -/
theorem map_ofText? {path text : String} (h : ofText? path text = some g) (s : Setting) :
    s.inText? path text = (g s).map some := by
  unfold ofText? at h
  unfold Setting.inText?
  split at h
  · next hp =>
    obtain ⟨t, ht, hg⟩ := Option.bind_eq_some_iff.1 h
    rw [if_pos hp, ht]
    exact map_ofJson? hg s
  · next hp =>
    obtain ⟨n, hn, hg⟩ := Option.bind_eq_some_iff.1 h
    rw [if_neg hp, hn]
    exact map_ofYaml? hg s

end Given

end HeaderMiner
