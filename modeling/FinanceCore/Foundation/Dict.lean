import FinanceCore.Foundation.Exceptions

namespace FinanceCore

open Exceptions List Function

/-- A dictionary lists its entries in insertion order, one for each key. -/
structure Dict (κ ν : Type) where
  entries : List (κ × ν)
  nodup : (entries.map Prod.fst).Nodup

namespace Dict

variable {κ ν : Type}

theorem ext_entries {first second : Dict κ ν} (same : first.entries = second.entries) : first = second := by
  cases first
  cases second
  simpa using same

def keys (dict : Dict κ ν) : List κ := dict.entries.map Prod.fst

theorem nodup_keys (dict : Dict κ ν) : dict.keys.Nodup := dict.nodup

def values (dict : Dict κ ν) : List ν := dict.entries.map Prod.snd

def empty : Dict κ ν := ⟨[], by simp⟩

/-- A dictionary over fixed keys reads each value from one function. -/
def tabulate (keys : List κ) (nodup : keys.Nodup) (value : κ → ν) : Dict κ ν where
  entries := keys.map fun key => (key, value key)
  nodup := by simpa [Function.comp_def] using nodup

variable (keys : List κ)

variable (nodup : keys.Nodup)

@[simp] theorem keys_tabulate (value : κ → ν) : (tabulate keys nodup value).keys = keys := by
  simp [Dict.keys, tabulate, comp_def]

@[simp] theorem values_tabulate (value : κ → ν) : (tabulate keys nodup value).values = keys.map value := by
  simp [values, tabulate, comp_def]

/-- Only the values at the keys matter. -/
theorem tabulate_congr {keys : List κ} {nodup : keys.Nodup} {first second : κ → ν}
    (same : ∀ key ∈ keys, first key = second key) : tabulate keys nodup first = tabulate keys nodup second := by
  apply ext_entries
  exact map_congr_left fun key member => by rw [same key member]

/-- The same change applies to every value. -/
def map {ω : Type} (change : κ → ν → ω) (dict : Dict κ ν) : Dict κ ω where
  entries := dict.entries.map fun entry => (entry.1, change entry.1 entry.2)
  nodup := by simpa [Function.comp_def] using dict.nodup

variable {ω ε : Type} {entries : List (κ × ν)} {key : κ} {dict : Dict κ ν} {value : ν}

variable (change : κ → ν → ω)

@[simp] theorem map_tabulate (keys : List κ) (nodup : keys.Nodup) (value : κ → ν) :
    (tabulate keys nodup value).map change = tabulate keys nodup fun key => change key (value key) := by
  simp [map, tabulate, comp_def]

variable [DecidableEq κ] {step : κ → ν → Except ε ω} {result : Dict κ ν}

def get? (dict : Dict κ ν) (key : κ) : Option ν := dict.entries.lookup key

/-- An update replaces the value in place or appends a new entry. -/
def setEntries (key : κ) (value : ν) : List (κ × ν) → List (κ × ν)
  | [] => [(key, value)]
  | entry :: rest => if entry.1 = key then (key, value) :: rest else entry :: setEntries key value rest

theorem map_fst_setEntries (key : κ) (value : ν) (entries : List (κ × ν)) :
    (setEntries key value entries).map Prod.fst =
      if key ∈ entries.map Prod.fst then entries.map Prod.fst else entries.map Prod.fst ++ [key] := by
  induction entries with
  | nil => simp [setEntries]
  | cons entry rest ih =>
    by_cases same : entry.1 = key
    · simp [setEntries, same]
    · simp only [setEntries, if_neg same, map_cons, ih, mem_cons, Ne.symm same, false_or]
      split_ifs <;> simp

theorem nodup_setEntries (key : κ) (value : ν) (entries : List (κ × ν))
    (nodup : (entries.map Prod.fst).Nodup) : ((setEntries key value entries).map Prod.fst).Nodup := by
  rw [map_fst_setEntries]
  split_ifs with present
  · exact nodup
  · exact nodup_append.mpr ⟨nodup, by simp, by
      intro first firstMember second secondMember equal
      rw [mem_singleton] at secondMember
      exact present (secondMember ▸ equal ▸ firstMember)⟩

def set (dict : Dict κ ν) (key : κ) (value : ν) : Dict κ ν :=
  ⟨setEntries key value dict.entries, nodup_setEntries key value dict.entries dict.nodup⟩

/-- An in-place change needs an existing key. -/
def modify? (dict : Dict κ ν) (key : κ) (change : ν → ν) : Option (Dict κ ν) :=
  (dict.get? key).map fun value => dict.set key (change value)

/-- Later entries overwrite earlier ones. -/
def ofList (entries : List (κ × ν)) : Dict κ ν :=
  entries.foldl (fun dict entry => dict.set entry.1 entry.2) empty

def fromKeys (keys : List κ) (value : ν) : Dict κ ν := ofList (keys.map fun key => (key, value))

theorem lookup_setEntries (key query : κ) (value : ν) (entries : List (κ × ν)) :
    (setEntries key value entries).lookup query =
      if query = key then some value else entries.lookup query := by
  induction entries with
  | nil =>
    by_cases same : query = key
    · simp [setEntries, same]
    · simp [setEntries, lookup, same, beq_false_of_ne same]
  | cons entry rest ih =>
    obtain ⟨head, old⟩ := entry
    by_cases here : head = key
    · subst here
      by_cases same : query = head
      · simp [setEntries, same]
      · simp [setEntries, lookup, same, beq_false_of_ne same]
    · by_cases same : query = head
      · subst same
        simp [setEntries, here, lookup]
      · simp [setEntries, here, lookup, ih, beq_false_of_ne same]

@[simp] theorem get?_set (dict : Dict κ ν) (key query : κ) (value : ν) :
    (dict.set key value).get? query = if query = key then some value else dict.get? query :=
  lookup_setEntries key query value dict.entries

/-- An entry behind a write is the written one or an older one. -/
theorem get?_set_cases {dict : Dict κ ν} {key query : κ} {value found : ν}
    (held : (dict.set key value).get? query = some found) :
    (query = key ∧ found = value) ∨ (query ≠ key ∧ dict.get? query = some found) := by
  rw [get?_set] at held
  split_ifs at held with same
  · exact .inl ⟨same, (Option.some.inj held).symm⟩
  · exact .inr ⟨same, held⟩

theorem keys_set (dict : Dict κ ν) (key : κ) (value : ν) :
    (dict.set key value).keys = if key ∈ dict.keys then dict.keys else dict.keys ++ [key] :=
  map_fst_setEntries key value dict.entries

theorem lookup_eq_none : entries.lookup key = none ↔ key ∉ entries.map Prod.fst := by
  rw [lookup_eq_none_iff]
  grind

theorem get?_eq_none : dict.get? key = none ↔ key ∉ dict.keys := lookup_eq_none

theorem get?_isSome : (dict.get? key).isSome ↔ key ∈ dict.keys := by
  rw [Option.isSome_iff_ne_none, ne_eq, get?_eq_none, not_not]

theorem mem_entries_of_get? (found : dict.get? key = some value) : (key, value) ∈ dict.entries := by
  obtain ⟨before, after, same, _⟩ := lookup_eq_some_iff.mp found
  rw [same]
  simp

theorem get?_of_mem_entries (member : (key, value) ∈ dict.entries) : dict.get? key = some value := by
  cases found : dict.get? key with
  | none => exact absurd (mem_map_of_mem member) (get?_eq_none.mp found)
  | some other =>
    have same := inj_on_of_nodup_map dict.nodup (mem_entries_of_get? found) member rfl
    rw [(Prod.mk.inj same).2]

theorem mem_entries_iff : (key, value) ∈ dict.entries ↔ dict.get? key = some value :=
  ⟨get?_of_mem_entries, mem_entries_of_get?⟩

@[simp] theorem get?_tabulate (value : κ → ν) (key : κ) :
    (tabulate keys nodup value).get? key = if key ∈ keys then some (value key) else none := by
  split_ifs with member
  · exact get?_of_mem_entries (mem_map_of_mem (f := fun key => (key, value key)) member)
  · rw [get?_eq_none, keys_tabulate]
    exact member

theorem set_tabulate (value : κ → ν) (key : κ) (new : ν) (member : key ∈ keys) :
    (tabulate keys nodup value).set key new = tabulate keys nodup (update value key new) := by
  apply ext_entries
  show setEntries key new (keys.map fun key => (key, value key)) = _
  unfold tabulate
  induction keys with
  | nil => simp at member
  | cons head rest ih =>
    rw [nodup_cons] at nodup
    by_cases here : head = key
    · subst here
      simp only [map_cons, setEntries, if_true, update_self, cons.injEq, true_and]
      refine map_congr_left fun later laterMember => ?_
      rw [update_of_ne]
      rintro rfl
      exact nodup.1 laterMember
    · have inside : key ∈ rest := (mem_cons.mp member).resolve_left (Ne.symm here)
      simp only [map_cons, setEntries, if_neg here, ih nodup.2 inside, update_of_ne here]

theorem modify?_tabulate (value : κ → ν) (key : κ) (change : ν → ν) (member : key ∈ keys) :
    (tabulate keys nodup value).modify? key change =
      some (tabulate keys nodup (update value key (change (value key)))) := by
  rw [modify?, get?_tabulate, if_pos member, Option.map_some, set_tabulate _ _ _ _ _ member]

theorem setEntries_of_not_mem (absent : key ∉ entries.map Prod.fst) :
    setEntries key value entries = entries ++ [(key, value)] := by
  induction entries with
  | nil => rfl
  | cons entry rest ih =>
    rw [map_cons, mem_cons, not_or] at absent
    rw [setEntries, if_neg (Ne.symm absent.1), ih absent.2, cons_append]

/-- A loop that sets one new key in every step lists its values in order. -/
theorem foldlM_set_fresh {α : Type} {key : α → κ} {value : α → ν}
    {step : Dict κ ν → α → Except ε (Dict κ ν)}
    {values : List α} (fresh : ∀ dict item, item ∈ values → key item ∉ dict.keys →
      step dict item = .ok (dict.set (key item) (value item))) (nodup : (dict.keys ++ values.map key).Nodup) :
    ∃ final, values.foldlM step dict = .ok final ∧
      final.entries = dict.entries ++ values.map fun item => (key item, value item) := by
  induction values generalizing dict with
  | nil => exact ⟨dict, rfl, by simp⟩
  | cons item rest ih =>
    have absent : key item ∉ dict.keys := by
      intro member
      exact (nodup_append.mp nodup).2.2 _ member _ (by simp) rfl
    have grown : (dict.set (key item) (value item)).entries = dict.entries ++ [(key item, value item)] :=
      setEntries_of_not_mem absent
    have keys : (dict.set (key item) (value item)).keys = dict.keys ++ [key item] := by
      rw [keys_set, if_neg absent]
    have disjoint : ((dict.set (key item) (value item)).keys ++ rest.map key).Nodup := by
      rwa [keys, append_assoc]
    obtain ⟨final, run, same⟩ := ih (fun dict later member => fresh dict later (by simp [member])) disjoint
    refine ⟨final, ?_, ?_⟩
    · rw [foldlM_cons, fresh dict item (by simp) absent, ok_bind, run]
    · rw [same, grown, append_assoc]
      rfl

/-- A list without repeated keys is its own dictionary. -/
theorem entries_ofList (nodup : (entries.map Prod.fst).Nodup) : (ofList entries).entries = entries := by
  have loop : ∃ final, entries.foldlM (fun dict entry => (.ok (dict.set entry.1 entry.2) : Except Unit _)) empty =
      .ok final ∧ final.entries = empty.entries ++ entries.map fun entry => (entry.1, entry.2) :=
    foldlM_set_fresh (fun _ _ _ _ => rfl) nodup
  obtain ⟨final, run, same⟩ := loop
  rw [ofList, show entries.foldl _ empty = final from Except.ok.inj (foldlM_pure.symm.trans run), same]
  exact map_id' _

theorem fromKeys_eq_tabulate (value : ν) : fromKeys keys value = tabulate keys nodup fun _ => value := by
  apply ext_entries
  exact entries_ofList (by simpa [comp_def] using nodup)

/-- A fallible change of every value keeps the keys. -/
def mapM {ε ω : Type} (dict : Dict κ ν) (step : κ → ν → Except ε ω) : Except ε (Dict κ ω) :=
  ofList <$> dict.entries.mapM fun entry => (entry.1, ·) <$> step entry.1 entry.2

theorem mapM_ok {result : Dict κ ω} :
    dict.mapM step = .ok result ↔
      Forall₂ (fun entry image => image.1 = entry.1 ∧ step entry.1 entry.2 = .ok image.2)
        dict.entries result.entries := by
  have loop {images : List (κ × ω)} :
      (dict.entries.mapM fun entry => (entry.1, ·) <$> step entry.1 entry.2) = .ok images ↔
        Forall₂ (fun entry image => image.1 = entry.1 ∧ step entry.1 entry.2 = .ok image.2)
          dict.entries images := by
    rw [Exceptions.mapM_ok]
    refine ⟨Forall₂.imp ?_, Forall₂.imp ?_⟩
    · rintro ⟨key, value⟩ image done
      obtain ⟨changed, run, rfl⟩ := map_ok.mp done
      exact ⟨rfl, run⟩
    · rintro ⟨key, value⟩ ⟨_, changed⟩ ⟨rfl, run⟩
      exact map_ok.mpr ⟨changed, run, rfl⟩
  rw [mapM, map_ok]
  constructor
  · rintro ⟨images, run, rfl⟩
    have each := loop.mp run
    rwa [entries_ofList]
    rw [map_eq_of_forall₂ (fun _ _ held => held.1) each]
    exact dict.nodup
  · intro each
    exact ⟨result.entries, loop.mpr each, ext_entries (entries_ofList result.nodup)⟩

theorem mapM_succeeds (each : ∀ entry ∈ dict.entries, ∃ value, step entry.1 entry.2 = .ok value) :
    ∃ result, dict.mapM step = .ok result := by
  simp only [mapM, map_ok, exists_comm (α := Dict κ ω), exists_and_left, exists_eq', and_true]
  refine Exceptions.mapM_succeeds fun entry member => ?_
  obtain ⟨value, done⟩ := each entry member
  exact ⟨(entry.1, value), map_ok.mpr ⟨value, done, rfl⟩⟩

/-- Fixed keys and lookups determine a dictionary. -/
theorem eq_tabulate_of_get? {keys : List κ} {nodup : keys.Nodup} {value : κ → ν}
    (same : dict.keys = keys)
    (lookups : ∀ key ∈ keys, dict.get? key = some (value key)) : dict = tabulate keys nodup value := by
  subst same
  apply ext_entries
  have each : ∀ entry ∈ dict.entries, (entry.1, value entry.1) = entry := by
    intro entry member
    have present : dict.get? entry.1 = some entry.2 := get?_of_mem_entries member
    rw [Option.some.inj ((lookups entry.1 (mem_map_of_mem member)).symm.trans present)]
  show dict.entries = (dict.entries.map Prod.fst).map _
  rw [map_map]
  exact ((map_congr_left each).trans (map_id' _)).symm

/-- Every dictionary is the table of its own lookups. -/
theorem eq_tabulate (dict : Dict κ ν) (fallback : ν) :
    dict = tabulate dict.keys dict.nodup_keys fun key => (dict.get? key).getD fallback := by
  refine eq_tabulate_of_get? rfl fun key member => ?_
  obtain ⟨value, found⟩ := Option.isSome_iff_exists.mp (get?_isSome.mpr member)
  rw [found, Option.getD_some]

/-- The values are the lookups of the keys in order. -/
theorem values_eq_map (dict : Dict κ ν) (fallback : ν) :
    dict.values = dict.keys.map fun key => (dict.get? key).getD fallback := by
  conv_lhs => rw [eq_tabulate dict fallback]
  rw [values_tabulate]

theorem get?_map (dict : Dict κ ν) (key : κ) : (dict.map change).get? key = (dict.get? key).map (change key) := by
  unfold get? map
  dsimp only
  induction dict.entries with
  | nil => rfl
  | cons entry rest ih =>
    by_cases same : key = entry.1
    · simp [lookup, same]
    · simpa [lookup, beq_false_of_ne same] using ih

omit [DecidableEq κ] in
theorem keys_map (dict : Dict κ ν) : (dict.map change).keys = dict.keys := by
  simp [keys, map, comp_def]

theorem keys_modify? {change : ν → ν} (done : dict.modify? key change = some result) : result.keys = dict.keys := by
  obtain ⟨value, found, rfl⟩ := Option.map_eq_some_iff.mp done
  rw [keys_set, if_pos (get?_isSome.mp (by rw [found]; rfl))]

theorem get?_modify? {change : ν → ν} (done : dict.modify? key change = some result) (query : κ) :
    result.get? query = if query = key then (dict.get? query).map change else dict.get? query := by
  obtain ⟨value, found, rfl⟩ := Option.map_eq_some_iff.mp done
  rw [get?_set]
  split_ifs with same
  · rw [same, found, Option.map_some]
  · rfl

section Fold

variable {ε ω : Type} {change : ω → ν → ν} {failure : κ × ω → ε} {entries : List (κ × ω)} {dict : Dict κ ν}

/-- A loop that changes each listed value needs every listed key. -/
theorem keys_of_foldlM_modify {dict result : Dict κ ν} (run : entries.foldlM (fun dict entry =>
      expect (dict.modify? entry.1 (change entry.2)) (failure entry)) dict = .ok result) :
    result.keys = dict.keys ∧ ∀ entry ∈ entries, entry.1 ∈ dict.keys := by
  induction entries generalizing dict with
  | nil =>
    rw [foldlM_nil, pure_ok] at run
    exact ⟨run ▸ rfl, by simp⟩
  | cons entry rest ih =>
    rw [foldlM_cons, bind_ok] at run
    obtain ⟨middle, head, tail⟩ := run
    have done := expect_ok.mp head
    obtain ⟨same, inside⟩ := ih tail
    have kept := keys_modify? done
    refine ⟨same.trans kept, ?_⟩
    intro later member
    rcases mem_cons.mp member with rfl | restMember
    · obtain ⟨value, found, _⟩ := Option.map_eq_some_iff.mp done
      exact get?_isSome.mp (by rw [found]; rfl)
    · exact kept ▸ inside later restMember

/-- Such a loop changes exactly the listed values, each once. -/
theorem foldlM_modify (change : ω → ν → ν) (failure : κ × ω → ε)
    (nodup : (entries.map Prod.fst).Nodup) (inside : ∀ entry ∈ entries, entry.1 ∈ dict.keys) :
    ∃ result, entries.foldlM (fun dict entry =>
        expect (dict.modify? entry.1 (change entry.2)) (failure entry)) dict = .ok result ∧
      result.keys = dict.keys ∧ ∀ key, result.get? key =
        match entries.lookup key with
        | some value => (dict.get? key).map (change value)
        | none => dict.get? key := by
  induction entries generalizing dict with
  | nil => exact ⟨dict, rfl, rfl, fun key => rfl⟩
  | cons entry rest ih =>
    rw [map_cons, nodup_cons] at nodup
    obtain ⟨value, found⟩ := Option.isSome_iff_exists.mp (get?_isSome.mpr (inside entry (by simp)))
    have done : dict.modify? entry.1 (change entry.2) = some (dict.set entry.1 (change entry.2 value)) := by
      rw [modify?, found, Option.map_some]
    have kept := keys_modify? done
    have insideRest : ∀ later ∈ rest, later.1 ∈ (dict.set entry.1 (change entry.2 value)).keys :=
      fun later member => kept ▸ inside later (by simp [member])
    obtain ⟨result, run, same, lookups⟩ := ih nodup.2 insideRest
    refine ⟨result, ?_, same.trans kept, ?_⟩
    · rw [foldlM_cons, done, expect, ok_bind, run]
    · intro key
      rw [lookups key]
      by_cases here : key = entry.1
      · subst here
        simp [lookup_eq_none.mpr nodup.1, lookup, found]
      · simp [lookup, beq_false_of_ne here, here]

/-- Over the same keys the loop changes every value. -/
theorem foldlM_modify_tabulate (change : ω → ν → ν) (failure : κ × ω → ε) (keys : List κ)
    (nodup : keys.Nodup) (value : κ → ν) (amount : κ → ω) :
    (tabulate keys nodup amount).entries.foldlM (fun dict entry =>
        expect (dict.modify? entry.1 (change entry.2)) (failure entry)) (tabulate keys nodup value) =
      .ok (tabulate keys nodup fun key => change (amount key) (value key)) := by
  have inside : ∀ entry ∈ (tabulate keys nodup amount).entries, entry.1 ∈ (tabulate keys nodup value).keys := by
    intro entry member
    rw [keys_tabulate, ← keys_tabulate keys nodup amount]
    exact mem_map_of_mem member
  obtain ⟨result, run, kept, lookups⟩ := foldlM_modify change failure (tabulate keys nodup amount).nodup inside
  rw [run]
  congr 1
  apply eq_tabulate_of_get? (kept.trans (keys_tabulate keys nodup value))
  intro key member
  have found : (tabulate keys nodup amount).entries.lookup key = some (amount key) := by
    have lookup := get?_tabulate keys nodup amount key
    rwa [if_pos member] at lookup
  rw [lookups key, found, get?_tabulate, if_pos member]
  rfl

theorem foldl_set (keys : List κ) (value : ν) (dict : Dict κ ν) (key : κ) :
    (keys.foldl (fun dict key => dict.set key value) dict).get? key =
      if key ∈ keys then some value else dict.get? key := by
  induction keys generalizing dict with
  | nil => simp
  | cons head rest ih =>
    rw [foldl_cons, ih]
    by_cases later : key ∈ rest
    · simp [later]
    · simp [later]

theorem get?_fromKeys (keys : List κ) (value : ν) (key : κ) :
    (fromKeys keys value).get? key = if key ∈ keys then some value else none := by
  rw [fromKeys, ofList, foldl_map, foldl_set]
  rfl

theorem keys_foldl_set {keys : List κ} {value : ν} (inside : ∀ key ∈ keys, key ∈ dict.keys) :
    (keys.foldl (fun dict key => dict.set key value) dict).keys = dict.keys := by
  induction keys generalizing dict with
  | nil => rfl
  | cons head rest ih =>
    have kept : (dict.set head value).keys = dict.keys := by
      rw [keys_set, if_pos (inside head (by simp))]
    rw [foldl_cons, ih fun key member => kept ▸ inside key (by simp [member]), kept]

end Fold

/-- Every value of the dictionary satisfies the predicate. -/
def All (holds : ν → Prop) (dict : Dict κ ν) : Prop := ∀ key value, dict.get? key = some value → holds value

section All

variable {holds : ν → Prop} {dict : Dict κ ν} {value : ν}

theorem All.set (all : dict.All holds) (new : holds value)
    (key : κ) : (dict.set key value).All holds := by
  intro query found same
  rcases get?_set_cases same with ⟨_, rfl⟩ | ⟨_, earlier⟩
  · exact new
  · exact all query found earlier

theorem All.modify? (all : dict.All holds) {key : κ} {change : ν → ν} {result : Dict κ ν}
    (done : dict.modify? key change = some result) (kept : ∀ value, holds value → holds (change value)) :
    result.All holds := by
  obtain ⟨value, found, rfl⟩ := Option.map_eq_some_iff.mp done
  exact all.set (kept value (all key value found)) key

theorem all_fromKeys (initial : holds value) (keys : List κ) : (fromKeys keys value).All holds := by
  intro key found same
  rw [get?_fromKeys] at same
  split_ifs at same
  exact Option.some.inj same ▸ initial

theorem All.mem_values (all : dict.All holds) (member : value ∈ dict.values) : holds value := by
  obtain ⟨entry, inside, rfl⟩ := mem_map.mp member
  exact all entry.1 entry.2 (get?_of_mem_entries inside)

end All

/-- Two dictionaries agree when every lookup gives the same, whatever the order of the entries. -/
def Agree (first second : Dict κ ν) : Prop := ∀ key, first.get? key = second.get? key

section Agree

variable {first second : Dict κ ν} {ε ω : Type}

section

variable (agree : Agree first second)
include agree

theorem Agree.mem_keys (key : κ) : key ∈ first.keys ↔ key ∈ second.keys := by
  rw [← get?_isSome, ← get?_isSome, agree key]

theorem Agree.entries_perm : first.entries.Perm second.entries := by
  refine (perm_ext_iff_of_nodup (List.Nodup.of_map _ first.nodup) (List.Nodup.of_map _ second.nodup)).mpr ?_
  rintro ⟨key, value⟩
  rw [mem_entries_iff, mem_entries_iff, agree key]

theorem Agree.keys_perm : first.keys.Perm second.keys := agree.entries_perm.map Prod.fst

theorem Agree.values_perm : first.values.Perm second.values := agree.entries_perm.map Prod.snd

theorem Agree.set (key : κ) (value : ν) : Agree (first.set key value) (second.set key value) := by
  intro query
  rw [get?_set, get?_set, agree query]

theorem Agree.modify? (key : κ) (change : ν → ν) {result : Dict κ ν}
    (done : first.modify? key change = some result) :
    ∃ matched, second.modify? key change = some matched ∧ Agree result matched := by
  obtain ⟨value, found, rfl⟩ := Option.map_eq_some_iff.mp done
  exact ⟨second.set key (change value), by rw [Dict.modify?, ← agree key, found, Option.map_some],
    agree.set key (change value)⟩

theorem Agree.map {ω : Type} (change : κ → ν → ω) : Agree (first.map change) (second.map change) := by
  intro key
  rw [get?_map, get?_map, agree key]

end

theorem agree_of_entries_perm (perm : first.entries.Perm second.entries) : Agree first second := by
  intro key
  cases found : second.get? key with
  | some value => exact get?_of_mem_entries (perm.symm.subset (mem_entries_of_get? found))
  | none =>
    rw [get?_eq_none] at found ⊢
    exact fun member => found ((perm.map Prod.fst).subset member)

/-- The same entries in the order of their keys. -/
def sortKeys [LE κ] [DecidableLE κ] (dict : Dict κ ν) : Dict κ ν where
  entries := dict.entries.insertionSort fun entry other => entry.1 ≤ other.1
  nodup := ((List.perm_insertionSort _ dict.entries).map Prod.fst).nodup_iff.mpr dict.nodup

theorem agree_sortKeys [LE κ] [DecidableLE κ] (dict : Dict κ ν) : Agree dict.sortKeys dict :=
  agree_of_entries_perm (perm_insertionSort _ dict.entries)

theorem agree_ofList_perm {entries others : List (κ × ν)} (nodup : (entries.map Prod.fst).Nodup)
    (perm : entries.Perm others) : Agree (ofList entries) (ofList others) := by
  apply agree_of_entries_perm
  rwa [entries_ofList nodup, entries_ofList ((perm.map Prod.fst).nodup_iff.mp nodup)]

/-- The loops over two agreeing change lists keep two agreeing dictionaries in agreement. -/
theorem Agree.foldlM_modify (change : ω → ν → ν) (failure : κ × ω → ε)
    {changes changesToo : Dict κ ω} (agree : Agree first second) (same : Agree changes changesToo) :
    Carries Agree (changes.entries.foldlM (fun dict entry =>
        expect (dict.modify? entry.1 (change entry.2)) (failure entry)) first)
      (changesToo.entries.foldlM (fun dict entry =>
        expect (dict.modify? entry.1 (change entry.2)) (failure entry)) second) := by
  intro result run
  have inside := (keys_of_foldlM_modify run).2
  have insideToo : ∀ entry ∈ changesToo.entries, entry.1 ∈ second.keys := fun entry member =>
    (agree.mem_keys entry.1).mp (inside entry (same.entries_perm.symm.subset member))
  obtain ⟨_, runAgain, _, lookups⟩ := Dict.foldlM_modify change failure changes.nodup inside
  obtain rfl := Except.ok.inj (run.symm.trans runAgain)
  obtain ⟨matched, runToo, _, lookupsToo⟩ := Dict.foldlM_modify change failure changesToo.nodup insideToo
  refine ⟨matched, runToo, fun key => ?_⟩
  rw [lookups key, lookupsToo key, agree key]
  change (match changes.get? key with | some value => _ | none => _) = _
  rw [same key]
  rfl

/-- A loop that labels its results builds agreeing dictionaries from permuted lists. -/
theorem agree_ofList_mapM {ε α ω : Type} {label : α → κ} {step : α → Except ε (κ × ω)}
    (labelled : ∀ value image, step value = .ok image → image.1 = label value)
    {values others : List α} (nodup : (values.map label).Nodup) (perm : values.Perm others) :
    Carries (fun first second => Agree (ofList first) (ofList second)) (values.mapM step) (others.mapM step) := by
  intro images done
  obtain ⟨matched, doneToo, held⟩ := Carries.mapM_perm perm images done
  refine ⟨matched, doneToo, agree_ofList_perm ?_ held⟩
  have labels : images.map Prod.fst = values.map label :=
    map_eq_of_forall₂ labelled (Exceptions.mapM_ok.mp done)
  exact labels ▸ nodup

theorem Agree.mapM {step : κ → ν → Except ε ω} (agree : Agree first second) :
    Carries Agree (first.mapM step) (second.mapM step) := by
  refine Carries.map (agree_ofList_mapM (fun entry image run => ?_) first.nodup agree.entries_perm)
    fun _ _ held => held
  obtain ⟨_, _, rfl⟩ := map_ok.mp run
  rfl

end Agree

section Inverse

variable {μ : Type} [DecidableEq μ]

/-- The backward dictionary holds exactly the converse of what the forward one assigns. -/
def Inverse (image : ν → μ) (forward : Dict κ ν) (backward : Dict μ κ) : Prop :=
  ∀ key target, (∃ value, forward.get? key = some value ∧ image value = target) ↔ backward.get? target = some key

theorem inverse_empty (image : ν → μ) : Inverse image (empty : Dict κ ν) (empty : Dict μ κ) := by
  intro key target
  simp [get?, empty]

/-- A new pair is added to both dictionaries when neither side is taken. -/
theorem Inverse.set {image : ν → μ} {forward : Dict κ ν} {backward : Dict μ κ}
    (inverse : Inverse image forward backward) {key : κ} {value : ν}
    (newKey : forward.get? key = none) (newTarget : backward.get? (image value) = none) :
    Inverse image (forward.set key value) (backward.set (image value) key) := by
  intro query target
  rw [get?_set, get?_set]
  have converse := inverse query target
  by_cases same : query = key <;> by_cases sameTarget : target = image value
  · simp [same, sameTarget]
  · subst same
    rw [if_neg sameTarget, ← converse, newKey]
    simp [Ne.symm sameTarget]
  · subst sameTarget
    rw [if_neg same, converse, newTarget]
    simp [Ne.symm same]
  · rw [if_neg same, if_neg sameTarget]
    exact converse

end Inverse

end Dict

end FinanceCore
