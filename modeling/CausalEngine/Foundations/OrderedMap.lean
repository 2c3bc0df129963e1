import Mathlib.Data.List.Perm.Basic
import Mathlib.Data.List.Nodup
import Mathlib.Tactic

/-! Finite maps that remember the order of insertion. A dictionary with insertion order and a table
with a primary key are both of this kind. They differ in where a write to a present key is placed:
`set` (assignment) leaves the key where it is, `replace` (`INSERT OR REPLACE`) deletes the old row
and appends, `insertNew` (`INSERT OR IGNORE`) keeps the old row, `mapVals` (`UPDATE`) rewrites all. -/

namespace CausalEngine.Foundations

structure OrderedMap (κ α : Type) where
  entries : List (κ × α)
  nodup : (entries.map Prod.fst).Nodup

namespace OrderedMap

variable {κ α β : Type}

instance [DecidableEq κ] [DecidableEq α] : DecidableEq (OrderedMap κ α) := fun m n =>
  decidable_of_iff (m.entries = n.entries) (by cases m; cases n; simp)

@[ext] lemma ext {m n : OrderedMap κ α} (h : m.entries = n.entries) : m = n := by
  cases m; cases n; simpa using h

def empty : OrderedMap κ α := ⟨[], List.nodup_nil⟩

def keys (m : OrderedMap κ α) : List κ := m.entries.map Prod.fst

def values (m : OrderedMap κ α) : List α := m.entries.map Prod.snd

@[simp] lemma entries_empty : (empty : OrderedMap κ α).entries = [] := rfl

@[simp] lemma keys_empty : (empty : OrderedMap κ α).keys = [] := rfl

lemma keys_nodup (m : OrderedMap κ α) : m.keys.Nodup := m.nodup

section Keys

variable [DecidableEq κ]

def get? (m : OrderedMap κ α) (k : κ) : Option α := m.entries.lookup k

private lemma lookup_cons_of_ne {k j : κ} (w : α) (l : List (κ × α)) (h : k ≠ j) :
    ((j, w) :: l).lookup k = l.lookup k := by
  simp only [List.lookup_cons, beq_eq_false_iff_ne.mpr h]

lemma get?_eq_some (m : OrderedMap κ α) (k : κ) (v : α) :
    m.get? k = some v ↔ (k, v) ∈ m.entries := by
  obtain ⟨l, hl⟩ := m
  simp only [get?]
  induction l with
  | nil => simp
  | cons e l ih =>
    obtain ⟨j, w⟩ := e
    simp only [List.map_cons, List.nodup_cons] at hl
    by_cases hj : k = j
    · subst hj
      have hn : (k, v) ∉ l := fun h => hl.1 (List.mem_map_of_mem (f := Prod.fst) h)
      simp [hn, eq_comm]
    · simp [lookup_cons_of_ne w l hj, hj, ih hl.2]

lemma get?_eq_none (m : OrderedMap κ α) (k : κ) : m.get? k = none ↔ k ∉ m.keys := by
  constructor
  · intro h hk
    obtain ⟨⟨j, v⟩, he, rfl⟩ := List.mem_map.mp hk
    simp [(m.get?_eq_some j v).mpr he] at h
  · intro hk
    cases h : m.get? k with
    | none => rfl
    | some v => exact (hk (List.mem_map_of_mem (f := Prod.fst) ((m.get?_eq_some k v).mp h))).elim

lemma mem_keys (m : OrderedMap κ α) (k : κ) : k ∈ m.keys ↔ ∃ v, m.get? k = some v := by
  rw [← not_iff_not, ← get?_eq_none, ← Option.ne_none_iff_exists', not_not]

lemma get?_mem_values {m : OrderedMap κ α} {k : κ} {v : α} (h : m.get? k = some v) :
    v ∈ m.values :=
  List.mem_map_of_mem (f := Prod.snd) ((m.get?_eq_some k v).mp h)

@[simp] lemma get?_empty (k : κ) : (empty : OrderedMap κ α).get? k = none := rfl

private lemma notMem_keys_filter (l : List (κ × α)) (k : κ) :
    k ∉ (l.filter fun e => e.1 ≠ k).map Prod.fst := by
  simp

omit [DecidableEq κ] in
private lemma keys_filter_nodup {l : List (κ × α)} (p : κ × α → Bool)
    (h : (l.map Prod.fst).Nodup) : ((l.filter p).map Prod.fst).Nodup :=
  h.sublist (List.filter_sublist.map Prod.fst)

def assign (k : κ) (v : α) : List (κ × α) → List (κ × α)
  | [] => [(k, v)]
  | e :: es => if e.1 = k then (k, v) :: es else e :: assign k v es

lemma mem_assign {k : κ} {v : α} {l : List (κ × α)} {e : κ × α} (h : e ∈ assign k v l) :
    e = (k, v) ∨ e ∈ l := by
  induction l with
  | nil => exact Or.inl (List.mem_singleton.mp h)
  | cons f l ih =>
    simp only [assign] at h
    split_ifs at h
    · rcases List.mem_cons.mp h with rfl | h
      · exact Or.inl rfl
      · exact Or.inr (List.mem_cons_of_mem _ h)
    · rcases List.mem_cons.mp h with rfl | h
      · exact Or.inr List.mem_cons_self
      · exact (ih h).imp_right (List.mem_cons_of_mem _)

lemma assign_keys_nodup (k : κ) (v : α) {l : List (κ × α)} (h : (l.map Prod.fst).Nodup) :
    ((assign k v l).map Prod.fst).Nodup := by
  induction l with
  | nil => simp [assign]
  | cons e l ih =>
    simp only [List.map_cons, List.nodup_cons] at h
    simp only [assign]
    split_ifs with he
    · simpa only [List.map_cons, List.nodup_cons, ← he] using h
    · simp only [List.map_cons, List.nodup_cons]
      refine ⟨?_, ih h.2⟩
      intro hmem
      obtain ⟨f, hf, hfe⟩ := List.mem_map.mp hmem
      rcases mem_assign hf with rfl | hf
      · exact he hfe.symm
      · exact h.1 (hfe ▸ List.mem_map_of_mem hf)

lemma assign_append {k : κ} {v : α} {l l' : List (κ × α)} (h : k ∉ l.map Prod.fst) :
    assign k v (l ++ l') = l ++ assign k v l' := by
  induction l with
  | nil => rfl
  | cons e l ih =>
    simp only [List.map_cons, List.mem_cons, not_or] at h
    simp only [List.cons_append, assign, if_neg (Ne.symm h.1), ih h.2]

lemma assign_same {k : κ} {v : α} {l : List (κ × α)} (h : l.lookup k = some v) : assign k v l = l := by
  induction l with
  | nil => cases h
  | cons e l ih =>
    obtain ⟨j, w⟩ := e
    rw [assign]
    by_cases hj : j = k
    · subst hj
      rw [List.lookup_cons_self] at h
      rw [if_pos rfl, Option.some.inj h]
    · rw [lookup_cons_of_ne w l (Ne.symm hj)] at h
      rw [if_neg hj, ih h]

def set (m : OrderedMap κ α) (k : κ) (v : α) : OrderedMap κ α :=
  ⟨assign k v m.entries, assign_keys_nodup k v m.nodup⟩

def replace (m : OrderedMap κ α) (k : κ) (v : α) : OrderedMap κ α where
  entries := m.entries.filter (fun e => e.1 ≠ k) ++ [(k, v)]
  nodup := by
    rw [List.map_append, List.nodup_append]
    refine ⟨keys_filter_nodup _ m.nodup, by simp, ?_⟩
    rintro a ha b hb rfl
    obtain rfl : a = k := by simpa using hb
    exact notMem_keys_filter m.entries a ha

def insertNew (m : OrderedMap κ α) (k : κ) (v : α) : OrderedMap κ α :=
  if h : k ∈ m.keys then m else
    ⟨m.entries ++ [(k, v)], by
      rw [List.map_append, List.nodup_append]
      refine ⟨m.nodup, by simp, ?_⟩
      rintro a ha b hb rfl
      obtain rfl : a = k := by simpa using hb
      exact h ha⟩

def erase (m : OrderedMap κ α) (k : κ) : OrderedMap κ α :=
  ⟨m.entries.filter (fun e => e.1 ≠ k), keys_filter_nodup _ m.nodup⟩

def ofList (l : List (κ × α)) : OrderedMap κ α := l.foldl (fun m e => m.set e.1 e.2) empty

end Keys

def mapVals (f : κ → α → β) (m : OrderedMap κ α) : OrderedMap κ β where
  entries := m.entries.map fun e => (e.1, f e.1 e.2)
  nodup := by simpa only [List.map_map, Function.comp_def] using m.nodup

def filterMapVals (f : κ → α → Option β) (m : OrderedMap κ α) : OrderedMap κ β where
  entries := m.entries.filterMap fun e => (f e.1 e.2).map (e.1, ·)
  nodup := by
    obtain ⟨l, hl⟩ := m
    induction l with
    | nil => simp
    | cons e l ih =>
      simp only [List.map_cons, List.nodup_cons] at hl
      cases hf : f e.1 e.2 with
      | none => simpa [List.filterMap_cons, hf] using ih hl.2
      | some w =>
        simp only [List.filterMap_cons, hf, Option.map_some, List.map_cons, List.nodup_cons]
        refine ⟨?_, ih hl.2⟩
        rintro hmem
        obtain ⟨⟨k, u⟩, hu, rfl⟩ := List.mem_map.mp hmem
        obtain ⟨d, hd, hdu⟩ := List.mem_filterMap.mp hu
        obtain ⟨x, _, hx⟩ := Option.map_eq_some_iff.mp hdu
        exact hl.1 (List.mem_map.mpr ⟨d, hd, (Prod.mk.inj hx).1⟩)

def mapKeys {ι : Type} (f : κ → ι) (hf : Function.Injective f) (m : OrderedMap κ α) :
    OrderedMap ι α where
  entries := m.entries.map fun e => (f e.1, e.2)
  nodup := by
    have h := m.nodup.map hf
    simpa only [List.map_map, Function.comp_def] using h

@[simp] lemma keys_mapVals (f : κ → α → β) (m : OrderedMap κ α) : (m.mapVals f).keys = m.keys := by
  simp [keys, mapVals]

@[simp] lemma keys_mapKeys {ι : Type} (f : κ → ι) (hf : Function.Injective f)
    (m : OrderedMap κ α) : (m.mapKeys f hf).keys = m.keys.map f := by
  simp [keys, mapKeys]

@[simp] lemma values_mapKeys {ι : Type} (f : κ → ι) (hf : Function.Injective f)
    (m : OrderedMap κ α) : (m.mapKeys f hf).values = m.values := by
  simp [values, mapKeys]

lemma filterMapVals_mapKeys {ι : Type} (f : κ → ι) (hf : Function.Injective f) (g : ι → α → Option β)
    (m : OrderedMap κ α) :
    (m.mapKeys f hf).filterMapVals g = (m.filterMapVals fun k => g (f k)).mapKeys f hf := by
  apply ext
  simp only [filterMapVals, mapKeys, List.filterMap_map, List.map_filterMap]
  apply List.filterMap_congr
  intro e _
  simp only [Function.comp_apply, Option.map_map]
  rfl

section Lookup

variable [DecidableEq κ] (m : OrderedMap κ α) (k j : κ) (v : α)

@[simp] lemma get?_set : (m.set k v).get? j = if j = k then some v else m.get? j := by
  obtain ⟨l, hl⟩ := m
  simp only [set, get?]
  clear hl
  induction l with
  | nil =>
    by_cases h : j = k
    · simp [assign, h]
    · simp [assign, lookup_cons_of_ne v [] h, h]
  | cons e l ih =>
    obtain ⟨i, w⟩ := e
    by_cases hi : i = k
    · subst hi
      by_cases h : j = i
      · simp [assign, h]
      · simp [assign, lookup_cons_of_ne _ l h, h]
    · by_cases h : j = i
      · subst h
        simp [assign, hi]
      · simp [assign, lookup_cons_of_ne _ _ h, hi, ih]

@[simp] lemma get?_replace : (m.replace k v).get? j = if j = k then some v else m.get? j := by
  ext w
  rw [get?_eq_some]
  by_cases h : j = k
  · subst h
    simp [replace, eq_comm]
  · simp [replace, h, get?_eq_some]

@[simp] lemma get?_insertNew :
    (m.insertNew k v).get? j = if j = k then some ((m.get? k).getD v) else m.get? j := by
  simp only [insertNew]
  split_ifs with hk hj hj
  · subst hj
    obtain ⟨w, hw⟩ := (m.mem_keys j).mp hk
    simp [hw]
  · rfl
  · subst hj
    ext w
    rw [get?_eq_some]
    have hn := (m.get?_eq_none j).mpr hk
    have hw : (j, w) ∉ m.entries := fun he => by simp [(m.get?_eq_some j w).mpr he] at hn
    simp [hn, hw, eq_comm]
  · ext w
    rw [get?_eq_some, get?_eq_some]
    simp [hj]

@[simp] lemma get?_erase : (m.erase k).get? j = if j = k then none else m.get? j := by
  ext w
  rw [get?_eq_some]
  by_cases h : j = k
  · simp [erase, h]
  · simp [erase, h, get?_eq_some]

@[simp] lemma get?_mapVals (f : κ → α → β) : (m.mapVals f).get? j = (m.get? j).map (f j) := by
  ext w
  rw [get?_eq_some]
  simp only [mapVals, List.mem_map, Prod.mk.injEq, Prod.exists, Option.map_eq_some_iff, get?_eq_some]
  constructor
  · rintro ⟨i, u, hu, rfl, rfl⟩
    exact ⟨u, hu, rfl⟩
  · rintro ⟨u, hu, rfl⟩
    exact ⟨j, u, hu, rfl, rfl⟩

@[simp] lemma get?_filterMapVals (f : κ → α → Option β) :
    (m.filterMapVals f).get? j = (m.get? j).bind (f j) := by
  ext w
  rw [get?_eq_some]
  simp only [filterMapVals, List.mem_filterMap, Prod.exists, Option.map_eq_some_iff, Prod.mk.injEq,
    Option.bind_eq_some_iff, get?_eq_some]
  constructor
  · rintro ⟨i, u, hu, x, hx, rfl, rfl⟩
    exact ⟨u, hu, hx⟩
  · rintro ⟨u, hu, hx⟩
    exact ⟨j, u, hu, w, hx, rfl, rfl⟩

@[simp] lemma get?_mapKeys {ι : Type} [DecidableEq ι] (f : κ → ι) (hf : Function.Injective f) :
    (m.mapKeys f hf).get? (f j) = m.get? j := by
  ext w
  rw [get?_eq_some, get?_eq_some]
  simp only [mapKeys, List.mem_map, Prod.mk.injEq, Prod.exists]
  constructor
  · rintro ⟨i, u, hu, hi, rfl⟩
    exact hf hi ▸ hu
  · intro h
    exact ⟨j, w, h, rfl, rfl⟩

lemma keys_erase : (m.erase k).keys = m.keys.filter (· ≠ k) := by
  simp [keys, erase, List.filter_map, Function.comp_def]

lemma filterMapVals_erase {g h : κ → α → Option β} (heq : ∀ j, j ≠ k → g j = h j) :
    (m.erase k).filterMapVals g = (m.filterMapVals h).erase k := by
  apply ext
  simp only [filterMapVals, erase, List.filterMap_filter, List.filter_filterMap]
  apply List.filterMap_congr
  rintro ⟨j, v⟩ _
  by_cases hj : j = k
  · cases hv : h j v <;> simp [hj, Option.filter]
  · cases hv : h j v <;> simp [hj, heq j hj, hv, Option.filter]

omit [DecidableEq κ] in
lemma mapVals_mapVals {γ : Type} (f : κ → α → β) (g : κ → β → γ) (m : OrderedMap κ α) :
    (m.mapVals f).mapVals g = m.mapVals fun k v => g k (f k v) := by
  apply ext
  simp only [mapVals, List.map_map, Function.comp_def]

lemma mapVals_set (f : κ → α → β) : (m.set k v).mapVals f = (m.mapVals f).set k (f k v) := by
  apply ext
  simp only [mapVals, set]
  induction m.entries with
  | nil => rfl
  | cons e l ih =>
    rw [assign, List.map_cons, assign]
    dsimp only
    split_ifs
    · rfl
    · rw [List.map_cons, ih]

lemma mapVals_insertNew (f : κ → α → β) : (m.insertNew k v).mapVals f = (m.mapVals f).insertNew k (f k v) := by
  apply ext
  by_cases h : k ∈ m.keys
  · rw [insertNew, dif_pos h, insertNew, dif_pos (by rwa [keys_mapVals])]
  · rw [insertNew, dif_neg h, insertNew, dif_neg (by rwa [keys_mapVals])]
    simp only [mapVals, List.map_append, List.map_cons, List.map_nil]

end Lookup

section OfList

variable [DecidableEq κ]

lemma mem_keys_set (m : OrderedMap κ α) (k j : κ) (v : α) : j ∈ (m.set k v).keys ↔ j = k ∨ j ∈ m.keys := by
  simp only [mem_keys, get?_set]
  by_cases h : j = k <;> simp [h]

lemma mem_entries_set {m : OrderedMap κ α} {k : κ} {v : α} {e : κ × α} (h : e ∈ (m.set k v).entries) :
    e = (k, v) ∨ e ∈ m.entries := mem_assign h

lemma mem_keys_foldl_set (l : List (κ × α)) (m : OrderedMap κ α) (k : κ) :
    k ∈ (l.foldl (fun m e => m.set e.1 e.2) m).keys ↔ k ∈ m.keys ∨ k ∈ l.map Prod.fst := by
  induction l generalizing m with
  | nil => simp
  | cons e l ih =>
    rw [List.foldl_cons, ih, mem_keys_set, List.map_cons, List.mem_cons]
    tauto

lemma mem_keys_ofList (l : List (κ × α)) (k : κ) : k ∈ (ofList l).keys ↔ k ∈ l.map Prod.fst := by
  simp [ofList, mem_keys_foldl_set]

lemma mem_entries_ofList {l : List (κ × α)} {e : κ × α} (h : e ∈ (ofList l).entries) : e ∈ l := by
  suffices hs : ∀ (l : List (κ × α)) (m : OrderedMap κ α),
      e ∈ (l.foldl (fun m e => m.set e.1 e.2) m).entries → e ∈ m.entries ∨ e ∈ l by
    simpa using hs l empty h
  intro l
  induction l with
  | nil => exact fun m hm => Or.inl hm
  | cons f l ih =>
    intro m hm
    rcases ih _ hm with hm | hm
    · rcases mem_entries_set hm with rfl | hm
      · exact Or.inr List.mem_cons_self
      · exact Or.inl hm
    · exact Or.inr (List.mem_cons_of_mem _ hm)

lemma ofList_append (l l' : List (κ × α)) (h : ∀ e ∈ l', e.1 ∉ l.map Prod.fst) :
    (ofList (l ++ l')).entries = (ofList l).entries ++ (ofList l').entries := by
  rw [ofList, List.foldl_append]
  change (l'.foldl _ (ofList l)).entries = _
  suffices hs : ∀ (l' : List (κ × α)) (m n : OrderedMap κ α) (p : List (κ × α)),
      (∀ e ∈ l', e.1 ∉ p.map Prod.fst) → m.entries = p ++ n.entries →
      (l'.foldl (fun m e => m.set e.1 e.2) m).entries =
        p ++ (l'.foldl (fun m e => m.set e.1 e.2) n).entries by
    apply hs l' _ empty
    · exact fun e he hk => h e he ((mem_keys_ofList l e.1).mp hk)
    · simp
  intro l'
  induction l' with
  | nil => exact fun m n p _ hm => hm
  | cons e l' ih =>
    intro m n p hp hm
    apply ih _ _ _ (fun f hf => hp f (List.mem_cons_of_mem _ hf))
    simp only [set, hm]
    exact assign_append (hp e List.mem_cons_self)

lemma get?_foldl_set (l : List (κ × α)) (m : OrderedMap κ α) (k : κ) :
    (l.foldl (fun m e => m.set e.1 e.2) m).get? k = ((ofList l).get? k).or (m.get? k) := by
  induction l using List.reverseRecOn with
  | nil => rfl
  | append_singleton l e ih =>
    simp only [ofList, List.foldl_append, List.foldl_cons, List.foldl_nil, get?_set] at ih ⊢
    split_ifs
    · rfl
    · exact ih

lemma get?_ofList_append (l l' : List (κ × α)) (k : κ) :
    (ofList (l ++ l')).get? k = ((ofList l').get? k).or ((ofList l).get? k) := by
  rw [ofList, List.foldl_append]
  exact get?_foldl_set l' _ k

lemma assign_fresh {k : κ} {v : α} {l : List (κ × α)} (h : k ∉ l.map Prod.fst) :
    assign k v l = l ++ [(k, v)] := by
  have happ : assign k v (l ++ []) = l ++ assign k v [] := assign_append h
  rwa [List.append_nil] at happ

lemma entries_ofList {l : List (κ × α)} (h : (l.map Prod.fst).Nodup) : (ofList l).entries = l := by
  induction l using List.reverseRecOn with
  | nil => rfl
  | append_singleton l e ih =>
    rw [List.map_append, List.nodup_append] at h
    have hl : (ofList l).entries = l := ih h.1
    simp only [ofList, List.foldl_append, List.foldl_cons, List.foldl_nil] at hl ⊢
    have he : e.1 ∉ l.map Prod.fst := fun hmem => h.2.2 e.1 hmem e.1 (by simp) rfl
    change assign e.1 e.2 _ = _
    rw [hl, assign_fresh he]

lemma perm_iff_get? {m n : OrderedMap κ α} : m.entries.Perm n.entries ↔ ∀ k, m.get? k = n.get? k := by
  constructor
  · intro h k
    ext v
    rw [get?_eq_some, get?_eq_some, h.mem_iff]
  · intro h
    apply (List.perm_ext_iff_of_nodup (m.nodup.of_map Prod.fst) (n.nodup.of_map Prod.fst)).mpr
    rintro ⟨k, v⟩
    rw [← get?_eq_some, ← get?_eq_some, h]

lemma set_same {m : OrderedMap κ α} {k : κ} {v : α} (h : m.get? k = some v) : m.set k v = m := ext (assign_same h)

lemma filter_key (m : OrderedMap κ α) (k : κ) :
    m.entries.filter (fun e => e.1 = k) = (m.get? k).elim [] fun v => [(k, v)] := by
  obtain ⟨l, hl⟩ := m
  simp only [get?]
  induction l with
  | nil => rfl
  | cons e l ih =>
    obtain ⟨j, w⟩ := e
    simp only [List.map_cons, List.nodup_cons] at hl
    by_cases hj : k = j
    · subst hj
      have hnil : l.filter (fun e => e.1 = k) = [] := by
        simp only [List.filter_eq_nil_iff, decide_eq_true_eq]
        rintro e he rfl
        exact hl.1 (List.mem_map_of_mem he)
      simp [hnil]
    · rw [lookup_cons_of_ne w l hj, ← ih hl.2]
      simp [Ne.symm hj]

end OfList

end OrderedMap

end CausalEngine.Foundations
