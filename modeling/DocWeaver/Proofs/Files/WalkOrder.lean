import DocWeaver.Proofs.Files.WalkPaths
import Mathlib

/-!
The files a walk finds, and their order.

A disk is a tree of files when it is well formed, its entries lie below the root, no part of a
location is `.` or `..`, and every entry lies in a directory or at the top (`Disk.Tree`). In a
tree every location above an entry is a directory (`Disk.Tree.take_dir`), so an entry that is
not a link resolves to itself (`Disk.Tree.follow_eq`) and counts as a directory exactly when it
holds one (`Disk.Tree.isDir_iff`).

A file is found from a directory (`Found`) when it lies below it through real directories whose
names are not excluded, is an entry that is not a directory, and has a name that is not excluded
and a kept suffix. One step of the walk takes the files of the directory and walks the
subdirectories that are no links and whose names are not excluded (`mem_walkFrom_succ`), which is
how `Found` unfolds too (`found_iff`); so a walk with fuel for every depth lists exactly the files
found (`Disk.Tree.mem_walkFrom_iff`). Its order is `WalkBefore` on the parts below the start: the
files of a directory, by name, before everything below its subdirectories, and that by the name of
the subdirectory (`Disk.WellFormed.walkFrom_pairwise`). So the source files below a root that is a
directory are the files found from it, each once, in walk order, and a root that is not a
directory is an error naming it (`sourceFiles_lists_found_in_walk_order`).
-/

namespace DocWeaver.Files

/-- A disk whose entries form a tree of files: it is well formed, its entries lie below the
root, no part of a location is `.` or `..`, and every entry lies in a directory or at the top. -/
structure Disk.Tree (d : Disk) : Prop extends d.WellFormed where
  below : ∀ q ∈ d.entries.map (·.1), q ≠ []
  plain : ∀ q ∈ d.entries.map (·.1), ∀ part ∈ q, part ≠ "." ∧ part ≠ ".."
  parents : ∀ q ∈ d.entries.map (·.1), q.dropLast ≠ [] → d.entry? q.dropLast = some .dir

def WalkBefore : List String → List String → Prop
  | [a], [b] => a < b
  | [_], _ :: _ :: _ => True
  | a :: x :: xs, b :: y :: ys => a < b ∨ a = b ∧ WalkBefore (x :: xs) (y :: ys)
  | _, _ => False

def Found (d : Disk) (rules : WalkRules) (dir p : Location) : Prop :=
  ∃ sub nm, p = dir ++ sub ++ [nm] ∧
    (∀ k, 0 < k → k ≤ sub.length → d.entry? (dir ++ sub.take k) = some .dir) ∧
    (∀ s ∈ sub, s ∉ rules.excludedDirectories) ∧
    p ∈ d.entries.map (·.1) ∧ d.isDir p = false ∧
    nm ∉ rules.excludedFiles ∧ pathSuffix nm ∈ rules.suffixes

/-! ### Entries of a tree -/

namespace Disk

variable {d : Disk}

theorem mem_of_entry? {q : Location} {e : Entry} (hq : q ≠ []) (h : d.entry? q = some e) :
    q ∈ d.entries.map (·.1) := by
  simp only [Disk.entry?, List.isEmpty_iff, hq, if_false] at h
  obtain ⟨l₁, l₂, hl, -⟩ := List.lookup_eq_some_iff.mp h
  rw [hl]
  simp

theorem Tree.take_dir (hd : d.Tree) :
    ∀ (q : Location), q ∈ d.entries.map (·.1) →
      ∀ k, 0 < k → k < q.length → d.entry? (q.take k) = some .dir := by
  intro q
  induction hlen : q.length using Nat.strong_induction_on generalizing q with
  | _ n ih =>
    intro hq k hk hkq
    have hlen' : q.dropLast.length = n - 1 := by
      rw [List.length_dropLast]
      omega
    have hparent : q.dropLast ≠ [] := List.ne_nil_of_length_pos (by omega)
    have hdir := hd.parents q hq hparent
    -- the location just above is the parent; higher ones lie above the parent
    by_cases hlast : k = n - 1
    · rw [hlast, ← hlen, ← List.dropLast_eq_take]
      exact hdir
    · have hmem := mem_of_entry? hparent hdir
      have := ih (n - 1) (by omega) q.dropLast hlen' hmem k hk (by omega)
      rwa [List.dropLast_eq_take, List.take_take, Nat.min_eq_left (by omega)] at this

theorem Tree.length_le (hd : d.Tree) {q : Location} (hq : q ∈ d.entries.map (·.1)) :
    q.length ≤ d.entries.length := by
  have hsub : (List.range q.length).map (fun k => q.take (k + 1)) ⊆ d.entries.map (·.1) := by
    intro p hp
    obtain ⟨k, hk, rfl⟩ := List.mem_map.mp hp
    rw [List.mem_range] at hk
    by_cases hlast : k + 1 = q.length
    · rw [hlast, List.take_length]
      exact hq
    · exact mem_of_entry? (List.ne_nil_of_length_pos (by rw [List.length_take]; omega))
        (hd.take_dir q hq (k + 1) (by omega) (by omega))
  -- the prefixes have different lengths, so they are distinct
  have hnodup : ((List.range q.length).map (fun k => q.take (k + 1))).Nodup := by
    refine List.Nodup.map_on (fun a ha b hb h => ?_) List.nodup_range
    have := congrArg List.length h
    rw [List.mem_range] at ha hb
    simp only [List.length_take] at this
    omega
  simpa using (hnodup.subperm hsub).length_le

theorem walkParts_eq_append : ∀ (n : Nat) (base rest : Location), rest.length < n →
    (∀ c ∈ rest, c ≠ "." ∧ c ≠ "" ∧ c ≠ "..") →
    (∀ k, 0 < k → k ≤ rest.length → d.isLink (base ++ rest.take k) = false) →
    d.walkParts n base rest = base ++ rest := by
  intro n base rest
  induction rest generalizing n base with
  | nil =>
    intro hlen _ _
    cases n with
    | zero => simp at hlen
    | succ m => simp [walkParts]
  | cons c rest ih =>
    intro hlen hparts hlinks
    cases n with
    | zero => simp at hlen
    | succ m =>
      have hc := hparts c List.mem_cons_self
      have hlink : d.isLink (base ++ [c]) = false := by simpa using hlinks 1 (by omega) (by simp)
      have hstep : d.walkParts (m + 1) base (c :: rest) = d.walkParts m (base ++ [c]) rest := by
        have hname : (c == "." || c == "") = false := by simp [hc.1, hc.2.1]
        have hup : (c == "..") = false := by simp [hc.2.2]
        rw [walkParts, hname, hup]
        simp only [Bool.false_eq_true, if_false]
        split
        · next t ht => simp [isLink, ht] at hlink
        · rfl
      rw [hstep, ih m (base ++ [c]) (by simpa using hlen)
        (fun c' h => hparts c' (List.mem_cons_of_mem _ h))
        (fun k hk hkl => by simpa using hlinks (k + 1) (by omega) (by simpa using hkl))]
      simp

theorem Tree.follow_eq (hd : d.Tree) {q : Location} (hq : q ∈ d.entries.map (·.1))
    (hlink : d.isLink q = false) : d.follow q = q := by
  unfold follow
  rw [walkParts_eq_append _ [] q (by unfold resolveFuel; omega) ?parts ?links, List.nil_append]
  case parts =>
    intro c hc
    exact ⟨(hd.plain q hq c hc).1, (hd.names q hq c hc).1, (hd.plain q hq c hc).2⟩
  case links =>
    intro k hk hkq
    rw [List.nil_append]
    rcases Nat.lt_or_eq_of_le hkq with hlt | rfl
    · simp [isLink, hd.take_dir q hq k hk hlt]
    · rwa [List.take_length]

theorem Tree.isDir_iff (hd : d.Tree) {q : Location} (hq : q ∈ d.entries.map (·.1))
    (hlink : d.isLink q = false) : d.isDir q = true ↔ d.entry? q = some .dir := by
  unfold isDir stat?
  rw [hd.follow_eq hq hlink]
  rcases d.entry? q with _ | _ | _ | _ <;> simp

theorem mem_children_iff {dir : Location} {nm : String} :
    nm ∈ (d.children dir).map (·.1) ↔ dir ++ [nm] ∈ d.entries.map (·.1) := by
  refine ⟨mem_entries_of_mem_children, fun h => ?_⟩
  rw [children_names, List.mem_filterMap]
  exact ⟨dir ++ [nm], h, by simp [List.isPrefixOf_iff_prefix]⟩

end Disk

/-! ### The files found -/

variable {d : Disk} {rules : WalkRules}

theorem mem_walkFrom_succ {n : Nat} {dir p : Location} :
    p ∈ walkFrom d rules (n + 1) dir ↔
      (∃ nm, p = dir ++ [nm] ∧ p ∈ d.entries.map (·.1) ∧ d.isDir p = false ∧
        nm ∉ rules.excludedFiles ∧ pathSuffix nm ∈ rules.suffixes) ∨
      ∃ s, dir ++ [s] ∈ d.entries.map (·.1) ∧ d.isDir (dir ++ [s]) = true ∧
        d.isLink (dir ++ [s]) = false ∧ s ∉ rules.excludedDirectories ∧
        p ∈ walkFrom d rules n (dir ++ [s]) := by
  have hnames : ∀ nm, nm ∈ sortNames ((d.children dir).map (·.1)) ↔
      dir ++ [nm] ∈ d.entries.map (·.1) := fun nm => by
    rw [sortNames, List.mem_mergeSort, Disk.mem_children_iff]
  rw [walkFrom, List.mem_append, List.mem_map, List.mem_flatMap]
  simp only [List.mem_filter, hnames, Bool.and_eq_true, Bool.not_eq_true']
  constructor
  · rintro (⟨nm, ⟨⟨hnm, hfile⟩, hexcl, hsuf⟩, rfl⟩ | ⟨s, ⟨hs, hdir, hexcl⟩, hp⟩)
    · exact .inl ⟨nm, rfl, hnm, hfile, by simpa using hexcl, by simpa using hsuf⟩
    · split at hp
      · cases hp
      · next hlink => exact .inr ⟨s, hs, hdir, by simpa using hlink, by simpa using hexcl, hp⟩
  · rintro (⟨nm, rfl, hnm, hfile, hexcl, hsuf⟩ | ⟨s, hs, hdir, hlink, hexcl, hp⟩)
    · exact .inl ⟨nm, ⟨⟨hnm, hfile⟩, by simpa using hexcl, by simpa using hsuf⟩, rfl⟩
    · exact .inr ⟨s, ⟨hs, hdir, by simpa using hexcl⟩, by simpa [hlink] using hp⟩

theorem found_iff {dir p : Location} :
    Found d rules dir p ↔
      (∃ nm, p = dir ++ [nm] ∧ p ∈ d.entries.map (·.1) ∧ d.isDir p = false ∧
        nm ∉ rules.excludedFiles ∧ pathSuffix nm ∈ rules.suffixes) ∨
      ∃ s, d.entry? (dir ++ [s]) = some .dir ∧ s ∉ rules.excludedDirectories ∧
        Found d rules (dir ++ [s]) p := by
  constructor
  · rintro ⟨sub, nm, rfl, hdirs, hexcl, hp, hfile, hnm, hsuf⟩
    cases sub with
    | nil => exact .inl ⟨nm, by simp, by simpa using hp, by simpa using hfile, hnm, hsuf⟩
    | cons s sub =>
      refine .inr ⟨s, by simpa using hdirs 1 (by omega) (by simp), hexcl s List.mem_cons_self,
        sub, nm, by simp, fun k hk hks => ?_, fun x hx => hexcl x (List.mem_cons_of_mem _ hx),
        by simpa using hp, by simpa using hfile, hnm, hsuf⟩
      simpa using hdirs (k + 1) (by omega) (by simpa using hks)
  · rintro (⟨nm, rfl, hp, hfile, hnm, hsuf⟩ |
      ⟨s, hs, hexcl, sub, nm, rfl, hdirs, hexcl', hp, hfile, hnm, hsuf⟩)
    · exact ⟨[], nm, by simp, fun k hk hk' => by simp at hk'; omega, by simp, hp, hfile, hnm, hsuf⟩
    · refine ⟨s :: sub, nm, by simp, fun k hk hks => ?_, ?_, hp, hfile, hnm, hsuf⟩
      · obtain ⟨j, rfl⟩ := Nat.exists_eq_add_of_lt hk
        cases j with
        | zero => simpa using hs
        | succ j => simpa using hdirs (j + 1) (by omega) (by simpa using hks)
      · rintro x (_ | ⟨_, hx⟩)
        · exact hexcl
        · exact hexcl' x hx

theorem Disk.Tree.mem_walkFrom_iff (hd : d.Tree) :
    ∀ (n : Nat) (dir : Location), (∀ q ∈ d.entries.map (·.1), q.length < dir.length + n) →
      ∀ p, p ∈ walkFrom d rules n dir ↔ Found d rules dir p := by
  intro n
  -- the depth of the start and the fuel left together bound every entry
  induction n with
  | zero =>
    intro dir hdepth p
    simp only [walkFrom, List.not_mem_nil, false_iff]
    rintro ⟨sub, nm, rfl, -, -, hp, -⟩
    have := hdepth _ hp
    simp at this
  | succ n ih =>
    intro dir hdepth p
    rw [mem_walkFrom_succ, found_iff]
    refine or_congr Iff.rfl (exists_congr fun s => ?_)
    have hdepth' : ∀ q ∈ d.entries.map (·.1), q.length < (dir ++ [s]).length + n := by
      intro q hq
      have := hdepth q hq
      simp only [List.length_append, List.length_singleton]
      omega
    constructor
    · rintro ⟨hs, hdir, hlink, hexcl, hp⟩
      exact ⟨(hd.isDir_iff hs hlink).mp hdir, hexcl, (ih _ hdepth' p).mp hp⟩
    · rintro ⟨hs, hexcl, hp⟩
      have hmem := Disk.mem_of_entry? (by simp) hs
      have hlink : d.isLink (dir ++ [s]) = false := by simp [Disk.isLink, hs]
      exact ⟨hmem, (hd.isDir_iff hmem hlink).mpr hs, hlink, hexcl, (ih _ hdepth' p).mpr hp⟩

/-! ### The order of the walk -/

theorem sortNames_pairwise (names : List String) : (sortNames names).Pairwise (· ≤ ·) := by
  have := List.pairwise_mergeSort
    (fun a b c (hab : decide (a ≤ b) = true) (hbc : decide (b ≤ c) = true) => by
      simp only [decide_eq_true_eq] at *
      exact le_trans hab hbc)
    (fun a b : String => by simpa using le_total a b) names
  simpa [sortNames] using this

theorem Disk.WellFormed.sortNames_children_lt (hd : d.WellFormed) (dir : Location) :
    (sortNames ((d.children dir).map (·.1))).Pairwise (· < ·) := by
  have hnodup : (sortNames ((d.children dir).map (·.1))).Nodup :=
    (List.mergeSort_perm _ _).nodup_iff.mpr (hd.children_nodup dir)
  exact ((sortNames_pairwise _).and hnodup).imp fun h => lt_of_le_of_ne h.1 h.2

theorem drop_of_mem_walkFrom {n : Nat} {dir p : Location} {s : String}
    (hp : p ∈ walkFrom d rules n (dir ++ [s])) :
    ∃ x xs, p.drop dir.length = s :: x :: xs ∧ p.drop (dir ++ [s]).length = x :: xs := by
  obtain ⟨⟨x, xs, rfl⟩, -⟩ := mem_walkFrom n _ p hp
  exact ⟨x, xs, by simp, by simp⟩

/-- A walk lists the files of a directory, by name, before those below its subdirectories, and
those by the name of the subdirectory. -/
theorem Disk.WellFormed.walkFrom_pairwise (hd : d.WellFormed) :
    ∀ (n : Nat) (dir : Location), (walkFrom d rules n dir).Pairwise
      fun p q => WalkBefore (p.drop dir.length) (q.drop dir.length) := by
  intro n
  induction n with
  | zero => intro dir; simp [walkFrom]
  | succ n ih =>
    intro dir
    have hsorted := hd.sortNames_children_lt dir
    simp only [walkFrom]
    rw [List.pairwise_append]
    refine ⟨?_, ?_, ?_⟩
    · -- the files of the directory, by name
      rw [List.pairwise_map]
      refine ((hsorted.filter _).filter _).imp fun hab => ?_
      simpa [WalkBefore] using hab
    · -- each subdirectory's files in its own order, and the subdirectories by name
      rw [List.pairwise_flatMap]
      refine ⟨fun s _ => ?_, (hsorted.filter _).imp fun hst p hp q hq => ?_⟩
      · split
        · exact List.Pairwise.nil
        · refine (ih (dir ++ [s])).imp_of_mem fun hp hq hpq => ?_
          obtain ⟨x, xs, hx, hx'⟩ := drop_of_mem_walkFrom hp
          obtain ⟨y, ys, hy, hy'⟩ := drop_of_mem_walkFrom hq
          rw [hx', hy'] at hpq
          rw [hx, hy]
          exact .inr ⟨rfl, hpq⟩
      · split at hp
        · cases hp
        split at hq
        · cases hq
        obtain ⟨x, xs, hx, -⟩ := drop_of_mem_walkFrom hp
        obtain ⟨y, ys, hy, -⟩ := drop_of_mem_walkFrom hq
        rw [hx, hy]
        exact .inl hst
    · -- the files of the directory before everything below it
      intro p hp q hq
      obtain ⟨nm, -, rfl⟩ := List.mem_map.mp hp
      obtain ⟨s, -, hq⟩ := List.mem_flatMap.mp hq
      split at hq
      · cases hq
      obtain ⟨y, ys, hy, -⟩ := drop_of_mem_walkFrom hq
      rw [hy]
      simp [WalkBefore]

/-! ### Source files -/

/-- On a tree the source files below a root that is a directory are the files found from it,
each once, in walk order; a root that is not a directory is an error naming it. -/
theorem sourceFiles_lists_found_in_walk_order (d : Disk) (hd : d.Tree) (cwd : Location)
    (root : String) (rules : WalkRules) :
    let r := d.resolve cwd root
    (d.isDir r = true → ∃ ps, sourceFiles d cwd root rules = .ok ps ∧
        (∀ p, p ∈ ps ↔ Found d rules r p) ∧ ps.Nodup ∧
        ps.Pairwise fun p q => WalkBefore (p.drop r.length) (q.drop r.length)) ∧
      (d.isDir r = false →
        sourceFiles d cwd root rules = .error ("Root directory does not exist: " ++ render r)) := by
  intro r
  constructor
  · intro hdir
    refine ⟨walkFrom d rules (d.entries.length + 1) r, by simp [sourceFiles, r, hdir],
      fun p => ?_, hd.walkFrom_nodup _ _, hd.walkFrom_pairwise _ _⟩
    refine hd.mem_walkFrom_iff _ r (fun q hq => ?_) p
    have := hd.length_le hq
    omega
  · intro hdir
    simp [sourceFiles, r, hdir]

/-- A repository with a file and a link to it at the top, a subdirectory, a link to the
subdirectory and an excluded directory is a tree, and its walk lists the files found. -/
theorem walk_of_repository_with_links :
    let d : Disk := ⟨[(["repo"], .dir), (["repo", "b.ts"], .file ⟨#[]⟩),
      (["repo", "a.js"], .link "b.ts"), (["repo", "lib"], .dir),
      (["repo", "lib", "c.ts"], .file ⟨#[]⟩), (["repo", "mirror"], .link "lib"),
      (["repo", "vendor"], .dir), (["repo", "vendor", "x.ts"], .file ⟨#[]⟩)]⟩
    let rules : WalkRules := { excludedDirectories := ["vendor"] }
    d.Tree ∧ let r := d.resolve [] "repo"
      (d.isDir r = true → ∃ ps, sourceFiles d [] "repo" rules = .ok ps ∧
          (∀ p, p ∈ ps ↔ Found d rules r p) ∧ ps.Nodup ∧
          ps.Pairwise fun p q => WalkBefore (p.drop r.length) (q.drop r.length)) ∧
        (d.isDir r = false →
          sourceFiles d [] "repo" rules = .error ("Root directory does not exist: " ++ render r)) := by
  intro d rules
  have hd : d.Tree := by
    refine ⟨⟨by decide +revert, by unfold IsName; decide +revert⟩, by decide +revert,
      by decide +revert, fun q hq hne => ?_⟩
    simp only [d, List.map_cons, List.map_nil, List.mem_cons, List.not_mem_nil, or_false] at hq
    rcases hq with rfl | rfl | rfl | rfl | rfl | rfl | rfl | rfl
    · simp at hne
    all_goals rfl
  exact ⟨hd, sourceFiles_lists_found_in_walk_order d hd [] "repo" rules⟩

end DocWeaver.Files
