import DocWeaver.Files.Walk
import Mathlib.Data.List.Nodup

/-!
The files a walk finds, and the paths that name them.

A disk is well formed when each location holds one entry and every part of a location is a
name: not empty, and without a slash (`Disk.WellFormed`). Then the names in a directory are
distinct (`Disk.WellFormed.children_nodup`), and the walk finds each file once
(`Disk.WellFormed.walkFrom_nodup`). Every file the walk finds is an entry of the disk strictly
below the directory it starts from, and has one of the kept suffixes (`mem_walkFrom`). Locations
made of names are written differently relative to a common base (`relativeTo_inj`).
-/

namespace DocWeaver.Files

def IsName (part : String) : Prop := part ≠ "" ∧ '/' ∉ part.toList

/-- A disk as a file system keeps one: one entry a location, and locations made of names. -/
structure Disk.WellFormed (d : Disk) : Prop where
  nodup : (d.entries.map (·.1)).Nodup
  names : ∀ q ∈ d.entries.map (·.1), ∀ part ∈ q, IsName part

/-! ### Names in a directory -/

theorem eq_append_getLastD {p q : Location} (hlen : q.length = p.length + 1) (hpre : p <+: q) :
    q = p ++ [q.getLastD ""] := by
  obtain ⟨t, rfl⟩ := hpre
  obtain ⟨x, rfl⟩ : ∃ x, t = [x] := by
    rw [List.length_append] at hlen
    exact List.length_eq_one_iff.mp (by omega)
  simp

namespace Disk

variable {d : Disk}

theorem children_names (d : Disk) (p : Location) :
    (d.children p).map (·.1) = (d.entries.map (·.1)).filterMap fun q =>
      if q.length == p.length + 1 && p.isPrefixOf q then some (q.getLastD "") else none := by
  simp only [children, List.map_filterMap, List.filterMap_map]
  congr 1
  funext x
  split <;> simp_all [List.isPrefixOf_iff_prefix]

theorem eq_append_of_mem_child {p q : Location} {nm : String}
    (h : nm ∈ if q.length == p.length + 1 && p.isPrefixOf q then some (q.getLastD "") else none) :
    q = p ++ [nm] := by
  split at h
  · rename_i hcond
    simp only [Bool.and_eq_true, beq_iff_eq, List.isPrefixOf_iff_prefix] at hcond
    rw [Option.mem_some_iff] at h
    rw [← h]
    exact eq_append_getLastD hcond.1 hcond.2
  · cases h

theorem mem_entries_of_mem_children {p : Location} {nm : String}
    (h : nm ∈ (d.children p).map (·.1)) : p ++ [nm] ∈ d.entries.map (·.1) := by
  rw [children_names, List.mem_filterMap] at h
  obtain ⟨q, hq, hsome⟩ := h
  rwa [← eq_append_of_mem_child hsome]

theorem WellFormed.children_nodup (hd : d.WellFormed) (p : Location) :
    ((d.children p).map (·.1)).Nodup := by
  rw [children_names]
  -- two entries with the same name in a directory are both the directory and that name
  exact List.Nodup.filterMap (fun q q' nm hq hq' => by
    rw [eq_append_of_mem_child hq, eq_append_of_mem_child hq']) hd.nodup

end Disk

/-! ### What a walk finds -/

variable {d : Disk} {rules : WalkRules}

theorem mem_walkFrom :
    ∀ (n : Nat) (dir p : Location), p ∈ walkFrom d rules n dir →
      (∃ nm rest, p = dir ++ nm :: rest) ∧ p ∈ d.entries.map (·.1) ∧
        rules.suffixes.contains (pathSuffix (p.getLastD "")) = true := by
  intro n
  induction n with
  | zero => intro dir p hp; simp [walkFrom] at hp
  | succ n ih =>
    intro dir p hp
    simp only [walkFrom, List.mem_append, List.mem_map, List.mem_flatMap, List.mem_filter] at hp
    rcases hp with ⟨nm, ⟨⟨hnm, -⟩, hkeep⟩, rfl⟩ | ⟨nm, ⟨hnm, -⟩, hp⟩
    · -- a file of this directory
      have hchild : nm ∈ (d.children dir).map (·.1) :=
        (List.mergeSort_perm _ _).subset hnm
      simp only [Bool.and_eq_true, Bool.not_eq_true'] at hkeep
      exact ⟨⟨nm, [], rfl⟩, Disk.mem_entries_of_mem_children hchild, by simpa using hkeep.2⟩
    · -- a file below a subdirectory, which is walked unless it is a link
      split at hp
      · cases hp
      · obtain ⟨⟨nm', rest, rfl⟩, hentry, hsuffix⟩ := ih _ p hp
        exact ⟨⟨nm, nm' :: rest, by simp⟩, hentry, hsuffix⟩

/-- On a well-formed disk a walk finds each file once. -/
theorem Disk.WellFormed.walkFrom_nodup (hd : d.WellFormed) :
    ∀ (n : Nat) (dir : Location), (walkFrom d rules n dir).Nodup := by
  intro n
  induction n with
  | zero => intro dir; simp [walkFrom]
  | succ n ih =>
    intro dir
    have hnames : (sortNames ((d.children dir).map (·.1))).Nodup :=
      (List.mergeSort_perm _ _).nodup_iff.mpr (hd.children_nodup dir)
    simp only [walkFrom]
    rw [List.nodup_append]
    refine ⟨?_, ?_, ?_⟩
    · -- the files of this directory: distinct names
      refine ((hnames.filter _).filter _).map ?_
      intro nm nm' h
      simpa using h
    · -- below the subdirectories: each walk finds distinct files, and two walks share none
      rw [List.nodup_flatMap]
      refine ⟨fun nm _ => ?_, ((hnames.filter _).imp fun hne p h1 h2 => ?_)⟩
      · split
        · exact List.nodup_nil
        · exact ih _
      · dsimp only at h1 h2
        split at h1
        · cases h1
        split at h2
        · cases h2
        obtain ⟨⟨x, r, rfl⟩, -⟩ := mem_walkFrom n _ p h1
        obtain ⟨⟨x', r', heq⟩, -⟩ := mem_walkFrom n _ _ h2
        simp only [List.append_assoc, List.singleton_append, List.append_cancel_left_eq,
          List.cons.injEq] at heq
        exact hne heq.1
    · -- a file of this directory is one part below it, a file found deeper at least two
      intro p hp q hq hpq
      subst hpq
      simp only [List.mem_map] at hp
      obtain ⟨nm, -, rfl⟩ := hp
      simp only [List.mem_flatMap] at hq
      obtain ⟨nm', -, hq⟩ := hq
      split at hq
      · cases hq
      obtain ⟨⟨x, r, heq⟩, -⟩ := mem_walkFrom n _ _ hq
      have := congrArg List.length heq
      simp at this

/-! ### Paths relative to a base -/

theorem intercalate_slash_inj {t u : List String} (ht : ∀ x ∈ t, IsName x)
    (hu : ∀ x ∈ u, IsName x) (h : "/".intercalate t = "/".intercalate u) : t = u := by
  -- joined names are empty only for no names, since the first name is not empty
  have hempty : ∀ {t : List String}, (∀ x ∈ t, IsName x) → t ≠ [] →
      ("/".intercalate t).toList ≠ [] := by
    intro t ht hne
    obtain ⟨x, xs, rfl⟩ := List.exists_cons_of_ne_nil hne
    have hx : x.toList ≠ [] := by simpa using (ht x List.mem_cons_self).1
    rw [String.toList_intercalate, List.map_cons]
    cases xs with
    | nil => simpa using hx
    | cons y ys => simp [hx]
  have hsplit : ∀ {t : List String}, (∀ x ∈ t, IsName x) → t ≠ [] →
      ("/".intercalate t).toList.splitOn '/' = t.map String.toList := by
    intro t ht hne
    rw [String.toList_intercalate]
    apply List.splitOn_intercalate
    · intro l hl
      obtain ⟨x, hx, rfl⟩ := List.mem_map.mp hl
      exact (ht x hx).2
    · simpa using hne
  by_cases htne : t = [] <;> by_cases hune : u = []
  · rw [htne, hune]
  · subst htne
    exact absurd (by rw [← h]; rfl) (hempty hu hune)
  · subst hune
    exact absurd (by rw [h]; rfl) (hempty ht htne)
  · have hmap : t.map String.toList = u.map String.toList := by
      rw [← hsplit ht htne, ← hsplit hu hune, h]
    exact List.map_injective_iff.mpr (fun a b hab => String.toList_inj.mp hab) hmap

theorem relativeTo_inj {base p q : Location} (hp : base <+: p) (hq : base <+: q)
    (hpn : ∀ x ∈ p, IsName x) (hqn : ∀ x ∈ q, IsName x)
    (h : relativeTo base p = relativeTo base q) : p = q := by
  obtain ⟨t, rfl⟩ := hp
  obtain ⟨u, rfl⟩ := hq
  simp only [relativeTo, List.drop_left] at h
  rw [intercalate_slash_inj (fun x hx => hpn x (List.mem_append_right base hx))
    (fun x hx => hqn x (List.mem_append_right base hx)) h]

end DocWeaver.Files
