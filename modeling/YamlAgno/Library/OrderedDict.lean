import Mathlib.Data.List.Nodup

/-!
# Dictionaries that keep the order of insertion

A dictionary is the list of its items, oldest first.  `set` replaces the value of
a key where it stands and puts a new key last; keys stay distinct, and a lookup
sees the last value set.
-/

namespace OrderedDict

universe u v

variable {K : Type u} {V : Type v} [DecidableEq K]

/-- `d[key] = value`. -/
def set (key : K) (value : V) : List (K × V) → List (K × V)
  | [] => [(key, value)]
  | item :: items =>
      if item.1 = key then (key, value) :: items else item :: set key value items

@[simp] theorem lookup_set_self
    (key : K) (value : V) (d : List (K × V)) :
    (set key value d).lookup key = some value := by
  induction d with
  | nil =>
      simp [set]
  | cons item items ih =>
      obtain ⟨key', value'⟩ := item
      by_cases h : key' = key
      · simp [set, h]
      · have hne : (key == key') = false := by simpa using Ne.symm h
        simp [set, h, List.lookup_cons, hne, ih]

theorem lookup_set_of_ne
    {key other : K} (h : other ≠ key) (value : V) (d : List (K × V)) :
    (set key value d).lookup other = d.lookup other := by
  have hother : (other == key) = false := by simpa using h
  induction d with
  | nil =>
      simp [set, List.lookup_cons, hother]
  | cons item items ih =>
      obtain ⟨key', value'⟩ := item
      by_cases hitem : key' = key
      · subst hitem
        simp [set, List.lookup_cons, hother]
      · simp [set, hitem, List.lookup_cons, ih]

theorem lookup_set
    (key other : K) (value : V) (d : List (K × V)) :
    (set key value d).lookup other = if other = key then some value else d.lookup other := by
  split_ifs with h
  · rw [h, lookup_set_self]
  · exact lookup_set_of_ne h value d

theorem mem_keys_set
    {key other : K} {value : V} {d : List (K × V)} :
    other ∈ (set key value d).map Prod.fst ↔ other = key ∨ other ∈ d.map Prod.fst := by
  induction d with
  | nil =>
      simp [set]
  | cons item items ih =>
      obtain ⟨key', value'⟩ := item
      by_cases hitem : key' = key
      · simp [set, hitem]
      · simp only [set, hitem, if_false, List.map_cons, List.mem_cons, ih]
        exact or_left_comm

/-- Keys stay distinct. -/
theorem nodup_keys_set
    {d : List (K × V)} (key : K) (value : V)
    (h : (d.map Prod.fst).Nodup) :
    ((set key value d).map Prod.fst).Nodup := by
  induction d with
  | nil =>
      simp [set]
  | cons item items ih =>
      obtain ⟨key', value'⟩ := item
      rw [List.map_cons, List.nodup_cons] at h
      by_cases hitem : key' = key
      · subst hitem
        simp only [set, if_true, List.map_cons, List.nodup_cons]
        exact h
      · simp only [set, hitem, if_false, List.map_cons, List.nodup_cons]
        refine ⟨fun hmem => ?_, ih h.2⟩
        rcases mem_keys_set.mp hmem with heq | hmem
        · exact hitem heq
        · exact h.1 hmem

/-- The items of a dictionary are what its keys look up. -/
theorem mem_iff_lookup
    {d : List (K × V)} (h : (d.map Prod.fst).Nodup) {key : K} {value : V} :
    (key, value) ∈ d ↔ d.lookup key = some value := by
  induction d with
  | nil =>
      simp
  | cons item items ih =>
      obtain ⟨key', value'⟩ := item
      rw [List.map_cons, List.nodup_cons] at h
      by_cases hkey : key = key'
      · subst hkey
        have hnot : (key, value) ∉ items := fun hmem =>
          h.1 (List.mem_map.mpr ⟨_, hmem, rfl⟩)
        simp [hnot, eq_comm]
      · have hne : (key == key') = false := by simpa using hkey
        simp [List.lookup_cons, hne, hkey, ← ih h.2]

/-! ## Dictionaries from pairs -/

/-- `dict(pairs)`: a later value of a key replaces an earlier one. -/
def ofPairs (pairs : List (K × V)) : List (K × V) :=
  pairs.foldl (fun d pair => set pair.1 pair.2 d) []

theorem set_of_not_mem
    {key : K} (value : V) {d : List (K × V)} (h : key ∉ d.map Prod.fst) :
    set key value d = d ++ [(key, value)] := by
  induction d with
  | nil =>
      rfl
  | cons item items ih =>
      rw [List.map_cons, List.mem_cons, not_or] at h
      rw [set, if_neg (Ne.symm h.1), ih h.2, List.cons_append]

/-- Setting a key that is there changes no key. -/
theorem keys_set_of_mem
    {key : K} (value : V) {d : List (K × V)} (h : key ∈ d.map Prod.fst) :
    (set key value d).map Prod.fst = d.map Prod.fst := by
  induction d with
  | nil =>
      simp at h
  | cons item items ih =>
      by_cases hkey : item.1 = key
      · rw [set, if_pos hkey, List.map_cons, List.map_cons, hkey]
      · have hrest : key ∈ items.map Prod.fst :=
          (List.mem_cons.mp h).resolve_left (Ne.symm hkey)
        rw [set, if_neg hkey, List.map_cons, List.map_cons, ih hrest]

/-- A dictionary is its keys in their order, and the value of each. -/
theorem ext_lookup
    {d e : List (K × V)}
    (hnodup : (d.map Prod.fst).Nodup)
    (hkeys : d.map Prod.fst = e.map Prod.fst)
    (hlookup : ∀ key, d.lookup key = e.lookup key) :
    d = e := by
  induction d generalizing e with
  | nil =>
      cases e with
      | nil => rfl
      | cons item items => cases hkeys
  | cons item items ih =>
      cases e with
      | nil =>
          cases hkeys
      | cons item' items' =>
          obtain ⟨key, value⟩ := item
          obtain ⟨key', value'⟩ := item'
          obtain ⟨hkey, hrest⟩ := List.cons.inj hkeys
          obtain rfl : key = key' := hkey
          obtain ⟨hnew, hnodup'⟩ := List.nodup_cons.mp hnodup
          have hvalue : value = value' := by simpa using hlookup key
          rw [hvalue, ih hnodup' hrest fun other => ?_]
          by_cases hother : other = key
          · subst hother
            have hmissing : ∀ {l : List (K × V)}, other ∉ l.map Prod.fst →
                l.lookup other = none := by
              intro l hl
              rw [List.lookup_eq_none_iff]
              intro item hitem
              simpa using fun heq : other = item.1 =>
                hl (List.mem_map.mpr ⟨item, hitem, heq.symm⟩)
            rw [hmissing hnew, hmissing (hrest ▸ hnew)]
          · have hsame := hlookup other
            have hne : (other == key) = false := beq_false_of_ne hother
            rwa [List.lookup_cons, List.lookup_cons, hne] at hsame

/-- Setting what a key has already changes nothing. -/
theorem set_of_lookup
    {key : K} {value : V} {d : List (K × V)} (h : d.lookup key = some value) :
    set key value d = d := by
  induction d with
  | nil =>
      simp at h
  | cons item items ih =>
      obtain ⟨key', value'⟩ := item
      by_cases hkey : key' = key
      · subst hkey
        have hvalue : value' = value := by simpa using h
        rw [set, if_pos rfl, hvalue]
      · have hne : (key == key') = false := by simpa using Ne.symm hkey
        rw [List.lookup_cons, hne] at h
        rw [set, if_neg hkey, ih h]

theorem mem_of_mem_set
    {key : K} {value : V} {d : List (K × V)} {item : K × V}
    (h : item ∈ set key value d) :
    item = (key, value) ∨ item ∈ d := by
  induction d with
  | nil =>
      simpa [set] using h
  | cons head items ih =>
      rw [set] at h
      split_ifs at h with hkey
      · rcases List.mem_cons.mp h with heq | hmem
        · exact Or.inl heq
        · exact Or.inr (List.mem_cons_of_mem head hmem)
      · rcases List.mem_cons.mp h with rfl | hmem
        · exact Or.inr List.mem_cons_self
        · exact (ih hmem).imp_right (List.mem_cons_of_mem head)

/-- Pairs under new keys are put last, in order. -/
theorem foldl_set_of_nodup
    {pairs d : List (K × V)} (h : ((d ++ pairs).map Prod.fst).Nodup) :
    pairs.foldl (fun d pair => set pair.1 pair.2 d) d = d ++ pairs := by
  induction pairs generalizing d with
  | nil =>
      rw [List.foldl_nil, List.append_nil]
  | cons pair pairs ih =>
      have hnew : pair.1 ∉ d.map Prod.fst := by
        intro hmem
        rw [List.map_append, List.nodup_append] at h
        exact h.2.2 pair.1 hmem pair.1 (by simp) rfl
      rw [List.foldl_cons, set_of_not_mem pair.2 hnew, ih, List.append_assoc]
      · rfl
      · rw [List.append_assoc]
        exact h

/-- A key that is there has its value replaced where it stands. -/
theorem set_of_mem
    {key : K} (value : V) {d : List (K × V)} (hd : (d.map Prod.fst).Nodup)
    (h : key ∈ d.map Prod.fst) :
    set key value d = d.map fun item => (item.1, if item.1 = key then value else item.2) := by
  induction d with
  | nil =>
      simp at h
  | cons item items ih =>
      rw [List.map_cons, List.nodup_cons] at hd
      by_cases hitem : item.1 = key
      · have hrest : items.map (fun item => (item.1, if item.1 = key then value else item.2)) =
            items := by
          refine (List.map_congr_left fun other hother => ?_).trans (List.map_id _)
          have hne : other.1 ≠ key := fun heq =>
            hd.1 (List.mem_map.mpr ⟨other, hother, heq.trans hitem.symm⟩)
          simp [hne]
        rw [set, if_pos hitem, List.map_cons, hrest, if_pos hitem, hitem]
      · have hmem : key ∈ items.map Prod.fst :=
          (List.mem_cons.mp h).resolve_left (Ne.symm hitem)
        rw [set, if_neg hitem, List.map_cons, ih hd.2 hmem, if_neg hitem]

/-- `d | pairs`: the values of the keys that are there, and the new keys after them. -/
theorem foldl_set_eq
    {pairs d : List (K × V)} (hd : (d.map Prod.fst).Nodup) (h : (pairs.map Prod.fst).Nodup) :
    pairs.foldl (fun d pair => set pair.1 pair.2 d) d =
      d.map (fun item => (item.1, (pairs.lookup item.1).getD item.2)) ++
        pairs.filter fun pair => pair.1 ∉ d.map Prod.fst := by
  induction pairs generalizing d with
  | nil =>
      simp
  | cons pair pairs ih =>
      obtain ⟨key, value⟩ := pair
      rw [List.map_cons, List.nodup_cons] at h
      have hlater : pairs.lookup key = none :=
        List.lookup_eq_none_iff.mpr fun other hother => by
          have hne : key ≠ other.1 := fun heq =>
            h.1 (List.mem_map.mpr ⟨other, hother, heq.symm⟩)
          simpa using hne
      rw [List.foldl_cons, ih (nodup_keys_set key value hd) h.2]
      by_cases hmem : key ∈ d.map Prod.fst
      · rw [keys_set_of_mem value hmem, set_of_mem value hd hmem, List.map_map,
          List.filter_cons_of_neg (by simpa using hmem)]
        congr 1
        refine List.map_congr_left fun item _ => ?_
        by_cases hitem : item.1 = key
        · simp [hitem, hlater]
        · simp [hitem, List.lookup_cons, beq_false_of_ne hitem]
      · rw [set_of_not_mem value hmem, List.map_append, List.append_assoc,
          List.filter_cons_of_pos (by simpa using hmem)]
        refine congrArg₂ _ (List.map_congr_left fun item hitem => ?_) ?_
        · have hne : item.1 ≠ key := fun heq => hmem (List.mem_map.mpr ⟨item, hitem, heq⟩)
          simp [List.lookup_cons, beq_false_of_ne hne]
        · have hsame : (pairs.filter fun pair =>
                pair.1 ∉ (d ++ [(key, value)]).map Prod.fst) =
              pairs.filter fun pair => pair.1 ∉ d.map Prod.fst := by
            refine List.filter_congr fun other hother => ?_
            have hne : other.1 ≠ key := fun heq =>
              h.1 (List.mem_map.mpr ⟨other, hother, heq⟩)
            simp [hne]
          rw [hsame]
          simp [hlater]

/-- Pairs with distinct keys are a dictionary as they are. -/
theorem ofPairs_of_nodup
    {pairs : List (K × V)} (h : (pairs.map Prod.fst).Nodup) :
    ofPairs pairs = pairs :=
  foldl_set_of_nodup h

/-- After some settings a key has the last value that it was set to, or the one before. -/
theorem lookup_foldl_set
    (pairs d : List (K × V)) (key : K) :
    (pairs.foldl (fun d pair => set pair.1 pair.2 d) d).lookup key =
      (pairs.reverse.lookup key).or (d.lookup key) := by
  induction pairs generalizing d with
  | nil =>
      rfl
  | cons pair pairs ih =>
      obtain ⟨key', value⟩ := pair
      have hpair : ([(key', value)].lookup key).or (d.lookup key) =
          if key = key' then some value else d.lookup key := by
        by_cases h : key = key'
        · simp [h]
        · simp [h, List.lookup_cons, beq_false_of_ne h]
      rw [List.foldl_cons, ih, lookup_set, List.reverse_cons, List.lookup_append,
        Option.or_assoc, hpair]

/-- A key has the last value among the pairs. -/
theorem lookup_ofPairs
    (pairs : List (K × V)) (key : K) :
    (ofPairs pairs).lookup key = pairs.reverse.lookup key := by
  rw [ofPairs, lookup_foldl_set, List.lookup_nil, Option.or_none]

/-- What is dropped for its key is not looked up. -/
theorem lookup_filter
    (p : K → Bool) (d : List (K × V)) (key : K) :
    (d.filter fun item => p item.1).lookup key = if p key = true then d.lookup key else none := by
  induction d with
  | nil =>
      simp
  | cons item d ih =>
      obtain ⟨key', value⟩ := item
      by_cases hkey : key = key'
      · subst hkey
        cases hp : p key with
        | true => simp [hp]
        | false => simpa [hp] using ih
      · have hne : (key == key') = false := beq_false_of_ne hkey
        cases hp : p key' with
        | true => simpa [hp, List.lookup_cons, hne] using ih
        | false => simpa [hp, List.lookup_cons, hne] using ih

/-- A dictionary has no items but those it was made from. -/
theorem mem_of_mem_ofPairs
    {pairs : List (K × V)} {item : K × V} (h : item ∈ ofPairs pairs) :
    item ∈ pairs := by
  have hfold : ∀ d : List (K × V),
      item ∈ pairs.foldl (fun d pair => set pair.1 pair.2 d) d → item ∈ d ∨ item ∈ pairs := by
    clear h
    induction pairs with
    | nil =>
        intro d hd
        exact Or.inl hd
    | cons pair pairs ih =>
        intro d hd
        rw [List.foldl_cons] at hd
        rcases ih _ hd with hset | hmem
        · rcases mem_of_mem_set hset with rfl | hold
          · exact Or.inr List.mem_cons_self
          · exact Or.inl hold
        · exact Or.inr (List.mem_cons_of_mem pair hmem)
  simpa using hfold [] h

/-- Setting pairs one after the other adds their keys. -/
theorem mem_keys_foldl_set
    {key : K} {pairs d : List (K × V)} :
    key ∈ (pairs.foldl (fun d pair => set pair.1 pair.2 d) d).map Prod.fst ↔
      key ∈ pairs.map Prod.fst ∨ key ∈ d.map Prod.fst := by
  induction pairs generalizing d with
  | nil =>
      simp
  | cons pair pairs ih =>
      rw [List.foldl_cons, ih, mem_keys_set, List.map_cons, List.mem_cons]
      exact or_left_comm.trans or_assoc.symm

theorem nodup_keys_foldl_set
    (pairs : List (K × V)) {d : List (K × V)} (hd : (d.map Prod.fst).Nodup) :
    ((pairs.foldl (fun d pair => set pair.1 pair.2 d) d).map Prod.fst).Nodup := by
  induction pairs generalizing d with
  | nil =>
      exact hd
  | cons pair pairs ih =>
      exact ih (nodup_keys_set pair.1 pair.2 hd)

theorem nodup_keys_ofPairs
    (pairs : List (K × V)) :
    ((ofPairs pairs).map Prod.fst).Nodup :=
  nodup_keys_foldl_set pairs List.nodup_nil

end OrderedDict
