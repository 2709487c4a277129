import DocWeaver.Config.Manager
import Mathlib

/-!
Settings entries updated in place.

A settings file loads to entries whose keys are values. Updating them with named values replaces
the value of every entry with the same text key and adds the others at the end. Two facts carry
every argument about settings in layers: updates keep the keys text (`TextKeys.updateWith`), so
the entries can be passed on by name (`keywords_of_textKeys`), and a name takes the value of the
last update that gives it, else the value it had (`lookupName_updateWith`).
-/

namespace DocWeaver.Config

open Value

def TextKeys (es : List (Value × Value)) : Prop := ∀ kv ∈ es, ∃ k, kv.1 = .str k

theorem sameKey_str (k : Value) (a : String) : sameKey k (.str a) = (k.str? == some a) := by
  cases k with
  | float x => cases x <;> rfl
  | str s => simp [sameKey, str?]
  | _ => rfl

theorem keyNamed_str (a n : String) : ((Value.str a).str? == some n) = decide (a = n) := by
  by_cases h : a = n <;> simp [str?, h]

theorem eq_str_of_str? {k : Value} {a : String} (h : k.str? = some a) : k = .str a := by
  cases k <;> simp_all [str?]

theorem sameKey_str_of_untexted {k : Value} (hk : k.str? = none) (a : String) :
    sameKey (.str a) k = false := by
  cases k with
  | str s => cases hk
  | float x => cases x <;> rfl
  | _ => rfl

theorem lookupName_insert (es : List (Value × Value)) (a n : String) (v : Value) :
    lookupName (Value.insert es (.str a) v) n = if a = n then some v else lookupName es n := by
  unfold Value.insert lookupName
  simp only [sameKey_str]
  split
  · -- some entry has the key `a`: each of them takes `v`, the others stay
    rename_i hany
    rw [List.find?_map]
    have hkeys : ((fun kv : Value × Value => kv.1.str? == some n) ∘
        fun (kv : Value × Value) => if (kv.1.str? == some a) = true then (kv.1, v) else (kv.1, kv.2)) =
        fun kv => kv.1.str? == some n := by
      funext kv
      simp only [Function.comp_apply]
      split <;> rfl
    rw [hkeys]
    split
    · subst a
      obtain ⟨kv, hmem, hkv⟩ := List.any_eq_true.1 hany
      cases hfind : es.find? (fun kv => kv.1.str? == some n) with
      | none => exact absurd hkv (by simpa using List.find?_eq_none.1 hfind kv hmem)
      | some kv' =>
        have hkv' : kv'.1.str? = some n := by simpa using List.find?_some hfind
        simp [hkv']
    · rename_i hne
      cases hfind : es.find? (fun kv => kv.1.str? == some n) with
      | none => rfl
      | some kv' =>
        have hkv' : kv'.1.str? = some n := by simpa using List.find?_some hfind
        have hother : ¬ kv'.1.str? = some a := by rw [hkv']; simpa [eq_comm] using hne
        simp [hother]
  · -- no entry has the key `a`: it is added last
    rename_i hany
    rw [List.find?_append]
    split
    · subst a
      have hnone : es.find? (fun kv => kv.1.str? == some n) = none :=
        List.find?_eq_none.2 fun kv hmem hkv => hany (List.any_eq_true.2 ⟨kv, hmem, hkv⟩)
      simp [hnone, keyNamed_str]
    · rename_i hne
      cases es.find? (fun kv => kv.1.str? == some n) <;> simp [keyNamed_str, hne]

theorem lookupName_insert_of_untexted (es : List (Value × Value)) {k : Value} (hk : k.str? = none)
    (v : Value) (n : String) : lookupName (Value.insert es k v) n = lookupName es n := by
  unfold Value.insert lookupName
  split
  · -- only entries whose key is not text take `v`, and no name finds them
    rw [List.find?_map]
    have hkeys : ((fun kv : Value × Value => kv.1.str? == some n) ∘
        fun (kv : Value × Value) => if sameKey kv.1 k = true then (kv.1, v) else (kv.1, kv.2)) =
        fun kv => kv.1.str? == some n := by
      funext kv
      simp only [Function.comp_apply]
      split <;> rfl
    rw [hkeys]
    cases hfind : es.find? (fun kv => kv.1.str? == some n) with
    | none => rfl
    | some kv =>
      have hkv : kv.1 = .str n := eq_str_of_str? (by simpa using List.find?_some hfind)
      simp [hkv, sameKey_str_of_untexted hk]
  · rw [List.find?_append]
    cases es.find? (fun kv => kv.1.str? == some n) <;> simp [hk]

theorem TextKeys.insert {es : List (Value × Value)} (h : TextKeys es) (a : String) (v : Value) :
    TextKeys (Value.insert es (.str a) v) := by
  intro kv hkv
  unfold Value.insert at hkv
  split at hkv
  · -- an entry updated in place keeps its key
    obtain ⟨kv', hmem, rfl⟩ := List.mem_map.1 hkv
    obtain ⟨k, hk⟩ := h kv' hmem
    refine ⟨k, ?_⟩
    rw [← hk]
    dsimp only
    split <;> rfl
  · rcases List.mem_append.1 hkv with hkv | hkv
    · exact h kv hkv
    · exact ⟨a, by simp_all⟩

theorem lookupName_cons_str (a n : String) (v : Value) (es : List (Value × Value)) :
    lookupName ((.str a, v) :: es) n = if a = n then some v else lookupName es n := by
  unfold lookupName
  by_cases h : a = n <;> simp [str?, h]

theorem lookupName_append (es es' : List (Value × Value)) (n : String) :
    lookupName (es ++ es') n = (lookupName es n).or (lookupName es' n) := by
  unfold lookupName
  rw [List.find?_append]
  cases es.find? (fun kv => kv.1.str? == some n) <;> rfl

theorem lookupName_named (fs : List (String × Value)) (n : String) :
    lookupName (fs.map fun (k, v) => (.str k, v)) n = fs.lookup n := by
  induction fs with
  | nil => rfl
  | cons f fs ih =>
    rw [List.map_cons, lookupName_cons_str, ih, List.lookup_cons]
    by_cases h : f.1 = n
    · simp [h]
    · rw [if_neg h, beq_false_of_ne (Ne.symm h)]

theorem TextKeys.named (fs : List (String × Value)) :
    TextKeys (fs.map fun (k, v) => (.str k, v)) := by
  intro kv hkv
  obtain ⟨f, -, rfl⟩ := List.mem_map.1 hkv
  exact ⟨f.1, rfl⟩

theorem TextKeys.filter {es : List (Value × Value)} (h : TextKeys es) (p : Value × Value → Bool) :
    TextKeys (es.filter p) :=
  fun kv hkv => h kv (List.mem_filter.1 hkv).1

theorem TextKeys.updateWith {es more : List (Value × Value)} (h : TextKeys es) (hmore : TextKeys more) :
    TextKeys (Config.updateWith es more) := by
  induction more generalizing es with
  | nil => exact h
  | cons m more ih =>
    obtain ⟨a, ha⟩ := hmore m List.mem_cons_self
    rcases m with ⟨k, v⟩
    dsimp only at ha
    subst ha
    exact ih (h.insert a v) fun kv hkv => hmore kv (List.mem_cons_of_mem _ hkv)

theorem lookupName_singleton (k v : Value) (n : String) :
    lookupName [(k, v)] n = if k.str? = some n then some v else none := by
  unfold lookupName
  by_cases h : k.str? = some n <;> simp [h]

theorem lookupName_insert_eq (es : List (Value × Value)) (k v : Value) (n : String) :
    lookupName (Value.insert es k v) n = (lookupName [(k, v)] n).or (lookupName es n) := by
  cases hk : k.str? with
  | none => rw [lookupName_insert_of_untexted es hk, lookupName_singleton, hk]; rfl
  | some a =>
    obtain rfl := eq_str_of_str? hk
    rw [lookupName_insert, lookupName_singleton, hk]
    by_cases h : a = n <;> simp [h]

theorem lookupName_updateWith (es more : List (Value × Value)) (n : String) :
    lookupName (Config.updateWith es more) n = (lookupName more.reverse n).or (lookupName es n) := by
  induction more generalizing es with
  | nil => rfl
  | cons m more ih =>
    rcases m with ⟨k, v⟩
    change lookupName (Config.updateWith (Value.insert es k v) more) n = _
    rw [ih, lookupName_insert_eq, List.reverse_cons, lookupName_append, Option.or_assoc]

theorem lookupName_updateNamed (es : List (Value × Value)) (more : List (String × Value)) (n : String) :
    lookupName (updateNamed es more) n = (more.reverse.lookup n).or (lookupName es n) := by
  rw [updateNamed, lookupName_updateWith, ← List.map_reverse, lookupName_named]

theorem TextKeys.updateNamed {es : List (Value × Value)} (h : TextKeys es) (more : List (String × Value)) :
    TextKeys (Config.updateNamed es more) :=
  h.updateWith (TextKeys.named more)

theorem named?_cons_str (a : String) (v : Value) (es : List (Value × Value)) :
    named? ((.str a, v) :: es) = (named? es).map ((a, v) :: ·) := by
  cases hr : named? es with
  | none =>
    unfold named? at hr ⊢
    rw [List.mapM_cons, hr]
    rfl
  | some fs =>
    unfold named? at hr ⊢
    rw [List.mapM_cons, hr]
    rfl

theorem named?_cons_untexted {k : Value} (hk : k.str? = none) (v : Value) (es : List (Value × Value)) :
    named? ((k, v) :: es) = none := by
  unfold named?
  rw [List.mapM_cons]
  simp [hk]

theorem keywords_of_textKeys {es : List (Value × Value)} (h : TextKeys es) :
    ∃ fs, keywords es = .ok fs ∧ ∀ n, fs.lookup n = lookupName es n := by
  induction es with
  | nil => exact ⟨[], rfl, fun _ => rfl⟩
  | cons kv es ih =>
    obtain ⟨a, ha⟩ := h kv List.mem_cons_self
    obtain ⟨fs, hfs, hlookup⟩ := ih fun kv' hkv' => h kv' (List.mem_cons_of_mem _ hkv')
    rcases kv with ⟨k, v⟩
    dsimp only at ha
    subst ha
    have hnamed : named? es = some fs := by
      unfold keywords at hfs
      split at hfs
      · rename_i fs' h'
        cases hfs
        exact h'
      · cases hfs
    have hcons : named? ((.str a, v) :: es) = some ((a, v) :: fs) := by
      rw [named?_cons_str, hnamed]
      rfl
    refine ⟨(a, v) :: fs, by rw [keywords, hcons], fun n => ?_⟩
    rw [List.lookup_cons, lookupName_cons_str, hlookup]
    by_cases h : a = n
    · simp [h]
    · rw [if_neg h, beq_false_of_ne (Ne.symm h)]

def textEntries (es : List (Value × Value)) : List (String × Value) :=
  es.filterMap fun kv => kv.1.str?.map (·, kv.2)

theorem lookup_textEntries (es : List (Value × Value)) (n : String) :
    (textEntries es).lookup n = lookupName es n := by
  induction es with
  | nil => rfl
  | cons kv es ih =>
    rcases kv with ⟨k, v⟩
    cases hk : k.str? with
    | none =>
      -- an entry whose key is not text is left out, and no name finds it
      have hskip : lookupName ((k, v) :: es) n = lookupName es n := by
        rw [← List.singleton_append, lookupName_append, lookupName_singleton, hk]
        rfl
      simp only [textEntries, List.filterMap_cons, hk, Option.map_none] at ih ⊢
      rw [hskip, ih]
    | some a =>
      obtain rfl := eq_str_of_str? hk
      rw [lookupName_cons_str, ← ih]
      simp only [textEntries, List.filterMap_cons, str?, Option.map_some, List.lookup_cons]
      by_cases h : a = n
      · simp [h]
      · rw [beq_false_of_ne (Ne.symm h), if_neg h]

theorem lookup_of_named? {es : List (Value × Value)} {fs : List (String × Value)}
    (h : named? es = some fs) (n : String) : fs.lookup n = lookupName es n := by
  induction es generalizing fs with
  | nil =>
    cases h
    rfl
  | cons kv es ih =>
    rcases kv with ⟨k, v⟩
    cases hk : k.str? with
    | none =>
      rw [named?_cons_untexted hk] at h
      cases h
    | some a =>
      obtain rfl := eq_str_of_str? hk
      rw [named?_cons_str] at h
      obtain ⟨fs', hfs', rfl⟩ := Option.map_eq_some_iff.1 h
      rw [List.lookup_cons, lookupName_cons_str, ih hfs']
      by_cases h : a = n
      · simp [h]
      · rw [if_neg h, beq_false_of_ne (Ne.symm h)]

theorem keywords_lookup {es : List (Value × Value)} {fs : List (String × Value)}
    (h : keywords es = .ok fs) (n : String) : fs.lookup n = lookupName es n := by
  unfold keywords at h
  split at h
  · rename_i fs' hnamed
    cases h
    exact lookup_of_named? hnamed n
  · cases h

end DocWeaver.Config
