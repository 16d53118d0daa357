import LiveMap.Config.File
import Mathlib.Data.List.Basic

/-!
# Settings in a section

The settings of a document may stand at its top, or in a section beside keys that are not looked at.
A section that is a mapping says what it would say alone, whatever the order of its keys. An empty
section is not taken for one: its own key is then a key among the others, and no setting has it.

## Main definitions

* `Setting.IsKey`: a key that some setting has.
* `Mapping.Distinct`: no two keys of a mapping are the same.
* `Mapping.FirstStray`: the first key of a mapping that is no setting's.
* `Config.Settles`: what a mapping of settings comes to.

## Main statements

* `Mapping.distinct_ofPairs`, `Yaml.distinct_of_readValue`: the keys of a mapping that is read are
  distinct.
* `Config.settles_ofMapping`, `Config.ofMapping_perm`: what the settings of a mapping are, and that
  their order says nothing.
* `Config.section_outcome`: what a section comes to, beside other keys and alone.
-/

namespace LiveMap

/-! ## Keys -/

namespace Value

theorem text_same {t : String} {v : Value} : (text t).same v = true ↔ v = text t := by
  cases v <;> simp [same, quotient?, eq_comm]

theorem same_text {t : String} {v : Value} : v.same (text t) = true ↔ v = text t := by
  cases v <;> simp [same, quotient?]

end Value

namespace Setting

/-- A key that some setting has. -/
def IsKey (key : Value) : Prop := ∃ s : Setting, key = .text s.name

theorem isSome_ofKey? {key : Value} : (ofKey? key).isSome = true ↔ IsKey key := by
  simp [ofKey?, IsKey, Value.text_same, mem_all]

theorem isNone_ofKey? {key : Value} : (ofKey? key).isNone = true ↔ ¬ IsKey key := by
  rw [← isSome_ofKey?]
  cases ofKey? key <;> simp

end Setting

namespace Mapping

variable {m n : Mapping} {t : String} {v w : Value}

/-- No two keys of a mapping are the same. -/
def Distinct (m : Mapping) : Prop :=
  (m.map Prod.fst).Pairwise fun key later => key.same later = false

/-- A key that is new comes last. -/
theorem keys_put (m : Mapping) (key value : Value) :
    (m.put key value).map Prod.fst = m.map Prod.fst ∨
      (m.put key value).map Prod.fst = m.map Prod.fst ++ [key] ∧
        ∀ p ∈ m, p.1.same key = false := by
  induction m with
  | nil => exact .inr ⟨rfl, by simp⟩
  | cons p rest ih =>
    by_cases hsame : p.1.same key = true
    · exact .inl (by simp [put, hsame])
    · simpa [put, hsame] using ih

theorem Distinct.put (h : m.Distinct) (key value : Value) : (m.put key value).Distinct := by
  unfold Distinct
  rcases keys_put m key value with hplace | ⟨hend, hnew⟩
  · rwa [hplace]
  · rw [hend]
    refine List.pairwise_append.2 ⟨h, List.pairwise_singleton _ _, ?_⟩
    simpa using hnew

theorem distinct_ofPairs (pairs : List (Value × Value)) : (ofPairs pairs).Distinct :=
  List.foldlRecOn pairs _ List.Pairwise.nil fun _ h p _ => h.put p.1 p.2

/-- A text has one value at most. -/
theorem Distinct.eq_of_mem (h : m.Distinct) (hv : (.text t, v) ∈ m) (hw : (.text t, w) ∈ m) :
    v = w := by
  have hself : (Value.text t).same (.text t) = true := Value.text_same.2 rfl
  induction m with
  | nil => cases hv
  | cons p rest ih =>
    obtain ⟨hfirst, hrest⟩ := List.pairwise_cons.1 h
    have hlater {x : Value} (hx : (.text t, x) ∈ rest) : p.1 ≠ .text t := by
      intro hp
      have hdiffers := hfirst _ (List.mem_map_of_mem hx)
      rw [hp, hself] at hdiffers
      cases hdiffers
    rcases List.mem_cons.1 hv with rfl | hvLater
    · rcases List.mem_cons.1 hw with hsame | hwLater
      · exact (Prod.mk.inj hsame).2.symm
      · exact absurd rfl (hlater hwLater)
    · rcases List.mem_cons.1 hw with rfl | hwLater
      · exact absurd rfl (hlater hvLater)
      · exact ih hrest hvLater hwLater

theorem get?_text_eq_none_iff : get? m (.text t) = none ↔ ∀ v, (.text t, v) ∉ m := by
  simp only [get?, Option.map_eq_none_iff, List.find?_eq_none, Value.same_text]
  exact ⟨fun h v hv => h _ hv rfl, fun h p hp heq => h p.2 (heq ▸ hp)⟩

theorem mem_of_get?_text (h : get? m (.text t) = some v) : (.text t, v) ∈ m := by
  obtain ⟨p, hfind, rfl⟩ := Option.map_eq_some_iff.1 h
  have hkey : p.1 = .text t := Value.same_text.1 (by simpa using List.find?_some hfind)
  exact hkey ▸ List.mem_of_find?_eq_some hfind

theorem get?_text_eq_some (hv : (.text t, v) ∈ m) (hunique : ∀ w, (.text t, w) ∈ m → w = v) :
    get? m (.text t) = some v := by
  cases hget : get? m (.text t) with
  | none => exact absurd hv (get?_text_eq_none_iff.1 hget v)
  | some w => rw [hunique w (mem_of_get?_text hget)]

/-- The first key of a mapping that is no setting's. -/
def FirstStray (m : Mapping) (key : Value) : Prop :=
  ∃ before value after, m = before ++ (key, value) :: after ∧
    (∀ p ∈ before, Setting.IsKey p.1) ∧ ¬ Setting.IsKey key

theorem firstStray_iff {key : Value} : m.FirstStray key ↔
    ∃ value, m.find? (fun p => (Setting.ofKey? p.1).isNone) = some (key, value) := by
  constructor
  · rintro ⟨before, value, after, hm, hbefore, hkey⟩
    have hnone : (Setting.ofKey? key).isNone = true := Setting.isNone_ofKey?.2 hkey
    refine ⟨value, List.find?_eq_some_iff_append.2 ⟨hnone, before, after, hm, ?_⟩⟩
    simpa [Setting.isSome_ofKey?] using hbefore
  · rintro ⟨value, hfind⟩
    obtain ⟨hkey, before, after, hm, hbefore⟩ := List.find?_eq_some_iff_append.1 hfind
    refine ⟨before, value, after, hm, ?_, Setting.isNone_ofKey?.1 hkey⟩
    simpa [Setting.isSome_ofKey?] using hbefore

/-- A mapping with a stray key has a first one. -/
theorem exists_firstStray (hv : (v, w) ∈ m) (hstray : ¬ Setting.IsKey v) :
    ∃ key, m.FirstStray key := by
  cases hfind : m.find? fun p => (Setting.ofKey? p.1).isNone with
  | none =>
    exact absurd (Setting.isNone_ofKey?.2 hstray) (List.find?_eq_none.1 hfind _ hv)
  | some p => exact ⟨p.1, firstStray_iff.2 ⟨p.2, hfind⟩⟩

end Mapping

namespace Config

open Setting (IsKey)

variable {m n pairs : Mapping}

/-! ## Mappings of settings -/

theorem ofMapping_of_firstStray {key : Value} (h : m.FirstStray key) :
    ofMapping m = .error (.unknownKey key) := by
  obtain ⟨value, hfind⟩ := Mapping.firstStray_iff.1 h
  rw [ofMapping, hfind]

theorem ofMapping_of_keys (h : ∀ p ∈ m, IsKey p.1) :
    ofMapping m = .ok fun s => (Mapping.get? m (.text s.name)).getD s.standard := by
  have hfind : m.find? (fun p => (Setting.ofKey? p.1).isNone) = none :=
    List.find?_eq_none.2 fun p hp hnone => Setting.isNone_ofKey?.1 hnone (h p hp)
  rw [ofMapping, hfind]

/-- What a mapping of settings comes to: a first stray key is reported, and otherwise every setting
has its value, or its standard if nothing is said. -/
structure Settles (m : Mapping) (outcome : Except ConfigError Config) : Prop where
  reported : ∀ key, m.FirstStray key → outcome = .error (.unknownKey key)
  settled : (∀ p ∈ m, IsKey p.1) → ∃ c, outcome = .ok c ∧
    (∀ (s : Setting) v, (.text s.name, v) ∈ m → c s = v) ∧
    ∀ s : Setting, (∀ v, (.text s.name, v) ∉ m) → c s = s.standard

theorem settles_ofMapping (h : m.Distinct) : Settles m (ofMapping m) where
  reported _ hstray := ofMapping_of_firstStray hstray
  settled hkeys := by
    refine ⟨_, ofMapping_of_keys hkeys, fun s v hv => ?_, fun s hnone => ?_⟩
    · rw [Mapping.get?_text_eq_some hv fun w hw => h.eq_of_mem hw hv, Option.getD_some]
    · rw [Mapping.get?_text_eq_none_iff.2 hnone, Option.getD_none]

/-- The order of settings says nothing. -/
theorem ofMapping_perm (h : m.Distinct) (hkeys : ∀ p ∈ m, IsKey p.1) (hperm : n.Perm m) :
    ofMapping n = ofMapping m := by
  rw [ofMapping_of_keys hkeys, ofMapping_of_keys fun p hp => hkeys p (hperm.mem_iff.1 hp)]
  congr 1
  funext s
  congr 1
  cases hget : Mapping.get? m (.text s.name) with
  | none =>
    rw [Mapping.get?_text_eq_none_iff] at hget ⊢
    exact fun v hv => hget v (hperm.mem_iff.1 hv)
  | some v =>
    have hv := Mapping.mem_of_get?_text hget
    exact Mapping.get?_text_eq_some (hperm.mem_iff.2 hv) fun w hw =>
      h.eq_of_mem (hperm.mem_iff.1 hw) hv

/-! ## Documents -/

theorem ofDocument_null : ofDocument .null = .ok standard := rfl

theorem ofDocument_mapping (m : Mapping) : ofDocument (.mapping m) =
    match Mapping.get? m (.text "viewer") with
    | some (.mapping inner) => ofMapping inner
    | _ => ofMapping m := by
  cases m <;> rfl

/-- No setting is named like the section. -/
theorem not_isKey_viewer : ¬ IsKey (.text "viewer") := by
  rintro ⟨s, hs⟩
  cases s <;> simp [Setting.name] at hs

/-! ## Files -/

theorem ofFile_of_readValue {text : String} {document : Value}
    (h : Yaml.readValue text = .ok document) :
    ofFile (some text) = (ofDocument document).mapError .rejected := by
  rw [ofFile, h]

end Config

namespace Yaml

theorem resolvePlain_ne_mapping (text : String) (m : Mapping) :
    resolvePlain text ≠ .ok (.mapping m) := by
  intro h
  unfold resolvePlain at h
  split_ifs at h <;> try cases h
  split at h
  · cases h
  · rename_i n _ _
    cases n <;> cases h
  · cases h

/-- The keys of a mapping that is read are distinct. -/
theorem distinct_of_readValue {text : String} {m : Mapping}
    (h : readValue text = .ok (.mapping m)) : m.Distinct := by
  rw [readValue] at h
  cases hnode : Node.ofText text with
  | error e => rw [hnode] at h; cases h
  | ok node =>
    rw [hnode] at h
    replace h : node.toValue = .ok (.mapping m) := h
    cases node with
    | scalar text plain =>
      rw [Node.toValue] at h
      split at h
      · exact absurd h (resolvePlain_ne_mapping text m)
      · cases h
    | sequence items =>
      rw [Node.toValue] at h
      cases hitems : itemValues items <;> rw [hitems] at h <;> cases h
    | mapping pairs =>
      rw [Node.toValue] at h
      cases hpairs : pairValues pairs with
      | error e => rw [hpairs] at h; cases h
      | ok both =>
        rw [hpairs] at h
        cases h
        exact Mapping.distinct_ofPairs _

end Yaml

namespace Config

open Setting (IsKey)

/-- Let a document hold `s` as its section, beside whatever other keys. If `s` is a mapping without
a section of its own, then the document comes to what `s` comes to alone: its first stray key is
reported, or every setting has the value that stands there and its standard otherwise, in whatever
order the keys stand. If the section is empty, then alone it would leave every setting at its
standard, but the document is refused: the name of the section is a key like the others, and the
first stray one among them is reported. What holds of documents holds of the files that they are
read from. -/
theorem section_outcome {pairs : Mapping} {s : Value}
    (hs : Mapping.get? pairs (.text "viewer") = some s) :
    (∀ m : Mapping, s = .mapping m → Mapping.get? m (.text "viewer") = none →
      ofDocument (.mapping pairs) = ofDocument s ∧
      (m.Distinct → Settles m (ofDocument s)) ∧
      ∀ n : Mapping, m.Distinct → n.Perm m → (∀ p ∈ m, IsKey p.1) →
        ofDocument (.mapping n) = ofDocument s) ∧
    (s = .null → ofDocument s = .ok standard ∧
      ∃ key, pairs.FirstStray key ∧ ofDocument (.mapping pairs) = .error (.unknownKey key)) ∧
    ∀ alone nested, Yaml.readValue alone = .ok s → Yaml.readValue nested = .ok (.mapping pairs) →
      ofFile (some alone) = (ofDocument s).mapError .rejected ∧
      ofFile (some nested) = (ofDocument (.mapping pairs)).mapError .rejected ∧
      ∀ m : Mapping, s = .mapping m → m.Distinct := by
  refine ⟨?_, ?_, ?_⟩
  · rintro m rfl hm
    have halone : ofDocument (.mapping m) = ofMapping m := by rw [ofDocument_mapping, hm]
    refine ⟨by rw [halone, ofDocument_mapping, hs], ?_, ?_⟩
    · intro hdistinct
      rw [halone]
      exact settles_ofMapping hdistinct
    · intro n hdistinct hperm hkeys
      have hn : Mapping.get? n (.text "viewer") = none := by
        rw [Mapping.get?_text_eq_none_iff] at hm ⊢
        exact fun v hv => hm v (hperm.mem_iff.1 hv)
      rw [ofDocument_mapping, hn, halone, ← ofMapping_perm hdistinct hkeys hperm]
  · rintro rfl
    obtain ⟨key, hkey⟩ :=
      Mapping.exists_firstStray (Mapping.mem_of_get?_text hs) not_isKey_viewer
    refine ⟨ofDocument_null, key, hkey, ?_⟩
    rw [ofDocument_mapping, hs, ← ofMapping_of_firstStray hkey]
  · intro alone nested halone hnested
    refine ⟨ofFile_of_readValue halone, ofFile_of_readValue hnested, ?_⟩
    rintro m rfl
    exact Yaml.distinct_of_readValue halone

/-- One topic is set, in a section beside another key as in a file of its own. -/
theorem section_outcome_oneTopic :
    ∃ c, ofFile (some "other: 1\nviewer:\n  map_topic: /m\n") = .ok c ∧
      ofFile (some "map_topic: /m\n") = .ok c ∧
      c .mapTopic = .text "/m" ∧ c .period = Setting.period.standard := by
  have hreadAlone : Yaml.readValue "map_topic: /m\n" =
      .ok (.mapping [(.text "map_topic", .text "/m")]) := by
    have hscan : Yaml.Token.scan "map_topic: /m\n" =
        .ok [.blockMappingStart, .key, .scalar "map_topic" true, .value, .scalar "/m" true,
          .blockEnd] := by
      decide +kernel
    rw [Yaml.readValue, Yaml.Node.ofText, hscan]
    rfl
  have hreadNested : Yaml.readValue "other: 1\nviewer:\n  map_topic: /m\n" =
      .ok (.mapping [(.text "other", .int 1),
        (.text "viewer", .mapping [(.text "map_topic", .text "/m")])]) := by
    have hscan : Yaml.Token.scan "other: 1\nviewer:\n  map_topic: /m\n" =
        .ok [.blockMappingStart, .key, .scalar "other" true, .value, .scalar "1" true,
          .key, .scalar "viewer" true, .value,
          .blockMappingStart, .key, .scalar "map_topic" true, .value, .scalar "/m" true, .blockEnd,
          .blockEnd] := by
      decide +kernel
    rw [Yaml.readValue, Yaml.Node.ofText, hscan]
    rfl
  obtain ⟨hmapping, -, hfiles⟩ := section_outcome
    (show Mapping.get? [(.text "other", .int 1),
      (.text "viewer", .mapping [(.text "map_topic", .text "/m")])] (.text "viewer") = _ from rfl)
  obtain ⟨halone, hnested, hdistinct⟩ := hfiles _ _ hreadAlone hreadNested
  obtain ⟨hsame, hsettles, -⟩ := hmapping _ rfl rfl
  obtain ⟨c, hc, hsaid, hunsaid⟩ :=
    (hsettles (hdistinct _ rfl)).settled (by simpa using ⟨.mapTopic, rfl⟩)
  refine ⟨c, ?_, ?_, hsaid .mapTopic _ (by simp [Setting.name]), hunsaid .period ?_⟩
  · rw [hnested, hsame, hc]
    rfl
  · rw [halone, hc]
    rfl
  · simp [Setting.name]

/-- A section of which nothing is left but a comment: its file is refused, while the comment alone
leaves every setting at its standard. -/
theorem ofFile_emptySection :
    ofFile (some "viewer:\n  # period: 0.02\n") =
        .error (.rejected (.unknownKey (.text "viewer"))) ∧
      ofFile (some "  # period: 0.02\n") = .ok standard := by
  have hnested : Yaml.readValue "viewer:\n  # period: 0.02\n" =
      .ok (.mapping [(.text "viewer", .null)]) := by
    have hscan : Yaml.Token.scan "viewer:\n  # period: 0.02\n" =
        .ok [.blockMappingStart, .key, .scalar "viewer" true, .value, .blockEnd] := by
      decide +kernel
    rw [Yaml.readValue, Yaml.Node.ofText, hscan]
    rfl
  have halone : Yaml.readValue "  # period: 0.02\n" = .ok .null := by
    have hscan : Yaml.Token.scan "  # period: 0.02\n" = .ok [] := by decide +kernel
    rw [Yaml.readValue, Yaml.Node.ofText, hscan]
    rfl
  rw [ofFile_of_readValue hnested, ofFile_of_readValue halone]
  exact ⟨rfl, rfl⟩

end Config

end LiveMap
