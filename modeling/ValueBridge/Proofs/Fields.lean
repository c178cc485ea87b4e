import ValueBridge.Fields
import Mathlib.Data.List.Forall2
/-!
# Sorting fields

Sorting looks at names alone, so it does the same to any two lists of fields with the same names in the same order
(`forall₂_sorted`).  So fields with the same names, paired name by name, are paired one by one when both are sorted
(`Paired.forall₂_sorted`).  Keeping the last field of every name (`lookup_latest`) puts the names into ascending order
(`ascending_latest`), and neither does anything to fields that are in this order already.
-/
namespace ValueBridge.Fields

variable {α β : Type}

theorem sorted_perm (fields : List (String × α)) : (sorted fields).Perm fields := List.mergeSort_perm _ _

/-- What keeps the names keeps the order. -/
theorem map_sorted {n : α → String} (g : α → String × β) (items : List α)
    (hg : ∀ a ∈ items, (g a).1 = n a) :
    (items.mergeSort fun a b => decide (n a ≤ n b)).map g = sorted (items.map g) :=
  List.map_mergeSort fun a ha b hb => by rw [hg a ha, hg b hb]

theorem sorted_map_snd (g : α → β) (fs : List (String × α)) :
    sorted (fs.map fun f => (f.1, g f.2)) = (sorted fs).map fun f => (f.1, g f.2) :=
  (map_sorted (n := Prod.fst) (fun f => (f.1, g f.2)) fs fun _ _ => rfl).symm

/-- **Fields with the same names are sorted alike.** -/
theorem forall₂_sorted {R : α → β → Prop} {fs : List (String × α)} {gs : List (String × β)}
    (h : List.Forall₂ (fun f g => f.1 = g.1 ∧ R f.2 g.2) fs gs) :
    List.Forall₂ (fun f g => f.1 = g.1 ∧ R f.2 g.2) (sorted fs) (sorted gs) := by
  have hlen := h.length_eq
  have hzip : ∀ p ∈ fs.zip gs, p.1.1 = p.2.1 ∧ R p.1.2 p.2.2 := fun p hp => List.forall₂_zip h hp
  have hf := map_sorted (n := fun p => p.1.1) Prod.fst (fs.zip gs) fun _ _ => rfl
  have hg := map_sorted (n := fun p => p.1.1) Prod.snd (fs.zip gs) fun p hp => (hzip p hp).1.symm
  rw [List.map_fst_zip (Nat.le_of_eq hlen)] at hf
  rw [List.map_snd_zip (Nat.le_of_eq hlen.symm)] at hg
  rw [← hf, ← hg, List.forall₂_map_left_iff, List.forall₂_map_right_iff, List.forall₂_same]
  exact fun p hp => hzip p (List.mem_mergeSort.1 hp)

/-! ## Ascending names -/

/-- Every name once, in ascending order. -/
def Ascending (fields : List (String × α)) : Prop := fields.Pairwise fun f g => f.1 < g.1

theorem Ascending.of_names {fs : List (String × α)} {gs : List (String × β)} (h : Ascending fs)
    (hnames : gs.map Prod.fst = fs.map Prod.fst) : Ascending gs := by
  have hfs : (fs.map Prod.fst).Pairwise (· < ·) := List.pairwise_map.2 h
  rw [← hnames] at hfs
  exact List.pairwise_map.1 hfs

theorem sorted_of_ascending {fs : List (String × α)} (h : Ascending fs) : sorted fs = fs :=
  List.mergeSort_of_pairwise (h.imp fun hlt => decide_eq_true (String.not_lt.1 (String.lt_asymm hlt)))

theorem put_of_forall_lt {name : String} {value : α} : ∀ {done : List (String × α)}, (∀ f ∈ done, f.1 < name) →
    put name value done = done ++ [(name, value)]
  | [], _ => rfl
  | (n, v) :: done, h => by
    obtain ⟨hn, hdone⟩ := List.forall_mem_cons.1 h
    have hne : name ≠ n := fun heq => String.lt_irrefl n (heq ▸ hn)
    rw [put, if_neg (String.lt_asymm hn), if_neg hne, put_of_forall_lt hdone]
    rfl

theorem foldl_put_of_ascending : ∀ {fs done : List (String × α)}, Ascending (done ++ fs) →
    fs.foldl (fun done f => put f.1 f.2 done) done = done ++ fs
  | [], done, _ => (List.append_nil done).symm
  | f :: fs, done, h => by
    have hlt : ∀ g ∈ done, g.1 < f.1 := fun g hg => (List.pairwise_append.1 h).2.2 g hg f List.mem_cons_self
    rw [List.append_cons] at h ⊢
    rw [List.foldl_cons, put_of_forall_lt hlt, foldl_put_of_ascending h]

theorem latest_of_ascending {fs : List (String × α)} (h : Ascending fs) : latest fs = fs :=
  @foldl_put_of_ascending α fs [] h

theorem mem_put {name : String} {value : α} {f : String × α} : ∀ {done : List (String × α)},
    f ∈ put name value done → f = (name, value) ∨ f ∈ done
  | [], h => .inl (List.mem_singleton.1 h)
  | (n, v) :: done, h => by
    rw [put] at h
    split at h
    · exact List.mem_cons.1 h
    · split at h
      · exact (List.mem_cons.1 h).imp_right (List.mem_cons_of_mem _)
      · rcases List.mem_cons.1 h with rfl | h
        · exact .inr List.mem_cons_self
        · exact (mem_put h).imp_right (List.mem_cons_of_mem _)

theorem Ascending.put {name : String} {value : α} : ∀ {done : List (String × α)}, Ascending done →
    Ascending (Fields.put name value done)
  | [], _ => List.pairwise_singleton _ _
  | (n, v) :: done, h => by
    obtain ⟨hn, hdone⟩ := List.pairwise_cons.1 h
    rw [Fields.put]
    split
    · rename_i hlt
      refine List.pairwise_cons.2 ⟨List.forall_mem_cons.2 ⟨hlt, fun f hf => ?_⟩, h⟩
      exact String.lt_trans hlt (hn f hf)
    · rename_i hnotlt
      split
      · rename_i heq
        rw [heq]
        exact List.pairwise_cons.2 ⟨hn, hdone⟩
      · rename_i hne
        refine List.pairwise_cons.2 ⟨fun f hf => ?_, Ascending.put hdone⟩
        rcases mem_put hf with rfl | hf
        · exact Std.lt_of_le_of_ne (String.not_lt.1 hnotlt) (Ne.symm hne)
        · exact hn f hf

theorem ascending_latest (fs : List (String × α)) : Ascending (latest fs) := by
  have hfold : ∀ (fs done : List (String × α)), Ascending done →
      Ascending (fs.foldl (fun done f => put f.1 f.2 done) done) := by
    intro fs
    induction fs with
    | nil => exact fun done h => h
    | cons f fs ih => exact fun done h => ih _ h.put
  exact hfold fs [] List.Pairwise.nil

theorem nodup_latest (fs : List (String × α)) : ((latest fs).map Prod.fst).Nodup := by
  have hne : ∀ {f g : String × α}, f.1 < g.1 → f.1 ≠ g.1 := fun hlt heq => by
    rw [heq] at hlt
    exact String.lt_irrefl _ hlt
  exact List.pairwise_map.2 ((ascending_latest fs).imp hne)

theorem mem_of_mem_latest {f : String × α} {fs : List (String × α)} (h : f ∈ latest fs) : f ∈ fs := by
  have hfold : ∀ (fs done : List (String × α)), f ∈ fs.foldl (fun done f => put f.1 f.2 done) done →
      f ∈ done ∨ f ∈ fs := by
    intro fs
    induction fs with
    | nil => exact fun done h => .inl h
    | cons g fs ih =>
      intro done h
      rcases ih _ h with h | h
      · exact (mem_put h).elim (fun hf => .inr (hf ▸ List.mem_cons_self)) .inl
      · exact .inr (List.mem_cons_of_mem _ h)
  exact (hfold fs [] h).resolve_left List.not_mem_nil

/-! ### The last field of a name -/

theorem lookup_cons_if (name key : String) (value : α) (fs : List (String × α)) :
    ((name, value) :: fs).lookup key = if key = name then some value else fs.lookup key := by
  rw [List.lookup_cons]
  by_cases hkey : key = name
  · rw [if_pos hkey, beq_iff_eq.2 hkey]
  · rw [if_neg hkey, beq_eq_false_iff_ne.2 hkey]

theorem lookup_put (name key : String) (value : α) : ∀ done : List (String × α),
    (put name value done).lookup key = if key = name then some value else done.lookup key
  | [] => lookup_cons_if name key value []
  | (n, v) :: done => by
    rw [put]
    split
    · exact lookup_cons_if name key value _
    · split
      · rename_i heq
        rw [lookup_cons_if, lookup_cons_if, heq]
        by_cases hkey : key = n
        · rw [if_pos hkey, if_pos hkey]
        · rw [if_neg hkey, if_neg hkey, if_neg hkey]
      · rename_i hne
        rw [lookup_cons_if, lookup_cons_if, lookup_put name key value done]
        by_cases hkey : key = n
        · have hother : key ≠ name := fun heq => hne (heq.symm.trans hkey)
          rw [if_pos hkey, if_neg hother, if_pos hkey]
        · rw [if_neg hkey, if_neg hkey]

/-- **What is kept for a name is the last value given for it.** -/
theorem lookup_latest (fs : List (String × α)) (key : String) : (latest fs).lookup key = fs.reverse.lookup key := by
  have hfold : ∀ fs done : List (String × α), (fs.foldl (fun done f => put f.1 f.2 done) done).lookup key =
      (fs.reverse.lookup key).or (done.lookup key) := by
    intro fs
    induction fs with
    | nil => exact fun done => rfl
    | cons f fs ih =>
      intro done
      rw [List.foldl_cons, ih, lookup_put, List.reverse_cons, List.lookup_append, Option.or_assoc, lookup_cons_if]
      by_cases hkey : key = f.1
      · rw [if_pos hkey, if_pos hkey, Option.some_or]
      · rw [if_neg hkey, if_neg hkey, List.lookup_nil, Option.none_or]
  rw [latest, hfold, List.lookup_nil, Option.or_none]

theorem lookup_map_snd (g : α → β) (key : String) : ∀ fs : List (String × α),
    (fs.map fun f => (f.1, g f.2)).lookup key = (fs.lookup key).map g
  | [] => rfl
  | (name, a) :: fs => by
    rw [List.map_cons, List.lookup_cons, List.lookup_cons, lookup_map_snd g key fs]
    cases key == name <;> rfl

/-! ## Fields in another order -/

/-- The same fields, those of one name in the same order. -/
def Rearranged (fs gs : List (String × α)) : Prop :=
  ∀ name : String, fs.filter (·.1 == name) = gs.filter (·.1 == name)

section Stable

variable {fs gs : List (String × α)}

theorem le_trans_names (a b c : String × α) (hab : decide (a.1 ≤ b.1)) (hbc : decide (b.1 ≤ c.1)) :
    decide (a.1 ≤ c.1) :=
  decide_eq_true (String.le_trans (of_decide_eq_true hab) (of_decide_eq_true hbc))

theorem le_total_names (a b : String × α) : decide (a.1 ≤ b.1) || decide (b.1 ≤ a.1) := by
  rw [Bool.or_eq_true, decide_eq_true_eq, decide_eq_true_eq]
  exact String.le_total a.1 b.1

theorem sorted_pairwise (fs : List (String × α)) : (sorted fs).Pairwise fun f g => f.1 ≤ g.1 :=
  List.Pairwise.imp of_decide_eq_true (List.pairwise_mergeSort le_trans_names le_total_names fs)

/-- Sorting keeps the fields of one name in their order. -/
theorem filter_sorted (fs : List (String × α)) (name : String) :
    (sorted fs).filter (·.1 == name) = fs.filter (·.1 == name) := by
  have hone : ∀ f ∈ fs.filter (·.1 == name), f.1 = name := fun f hf => beq_iff_eq.1 (List.mem_filter.1 hf).2
  have hpairwise : (fs.filter (·.1 == name)).Pairwise fun f g => decide (f.1 ≤ g.1) :=
    List.pairwise_of_forall_mem_list fun f hf g hg => by
      rw [hone f hf, hone g hg]
      exact decide_eq_true (String.le_refl name)
  have hsublist := (List.sublist_mergeSort le_trans_names le_total_names hpairwise List.filter_sublist).filter
    (·.1 == name)
  rw [List.filter_filter] at hsublist
  simp only [Bool.and_self] at hsublist
  exact (hsublist.eq_of_length ((sorted_perm fs).symm.filter _).length_eq).symm

theorem Rearranged.symm (h : Rearranged fs gs) : Rearranged gs fs := fun name => (h name).symm

theorem Rearranged.mem (h : Rearranged fs gs) {f : String × α} (hf : f ∈ fs) : f ∈ gs := by
  have hown : f ∈ fs.filter (·.1 == f.1) := List.mem_filter.2 ⟨hf, BEq.rfl⟩
  rw [h f.1] at hown
  exact (List.mem_filter.1 hown).1

theorem Rearranged.eq_nil_iff (h : Rearranged fs gs) : fs = [] ↔ gs = [] := by
  rw [List.eq_nil_iff_forall_not_mem, List.eq_nil_iff_forall_not_mem]
  exact ⟨fun hnone f hf => hnone f (h.symm.mem hf), fun hnone f hf => hnone f (h.mem hf)⟩

theorem filter_cons_own (f : String × α) (fs : List (String × α)) :
    (f :: fs).filter (·.1 == f.1) = f :: fs.filter (·.1 == f.1) := List.filter_cons_of_pos BEq.rfl

/-- The first of sorted fields has the least name. -/
theorem le_of_mem_pairwise {α : Type} {fs : List (String × α)} {f g : String × α}
    (h : (f :: fs).Pairwise fun f g => f.1 ≤ g.1) (hg : g ∈ f :: fs) : f.1 ≤ g.1 := by
  rcases List.mem_cons.1 hg with rfl | hg
  · exact String.le_refl _
  · exact (List.pairwise_cons.1 h).1 g hg

/-- The fields of one name go with those of the same name, in their order. -/
def Paired (R : α → β → Prop) (fs : List (String × α)) (gs : List (String × β)) : Prop :=
  ∀ name : String, List.Forall₂ (fun f g => R f.2 g.2) (fs.filter (·.1 == name)) (gs.filter (·.1 == name))

section Paired

variable {R : α → β → Prop} {gs : List (String × β)}

theorem Paired.exists_named (h : Paired R fs gs) (name : String) : (∃ f ∈ fs, f.1 = name) ↔ ∃ g ∈ gs, g.1 = name := by
  have hfs : fs.filter (·.1 == name) ≠ [] ↔ ∃ f ∈ fs, f.1 = name := by simp
  have hgs : gs.filter (·.1 == name) ≠ [] ↔ ∃ g ∈ gs, g.1 = name := by simp
  rw [← hfs, ← hgs, ← List.length_pos_iff, ← List.length_pos_iff, (h name).length_eq]

/-- Sorted fields that go with each other name by name go with each other as they stand. -/
theorem Paired.forall₂_of_pairwise : ∀ {fs : List (String × α)} {gs : List (String × β)}, Paired R fs gs →
    fs.Pairwise (fun f g => f.1 ≤ g.1) → gs.Pairwise (fun f g => f.1 ≤ g.1) →
    List.Forall₂ (fun f g => f.1 = g.1 ∧ R f.2 g.2) fs gs
  | [], [], _, _, _ => .nil
  | [], g :: _, h, _, _ => by
    obtain ⟨f, hf, -⟩ := (h.exists_named g.1).2 ⟨g, List.mem_cons_self, rfl⟩
    cases hf
  | f :: _, [], h, _, _ => by
    obtain ⟨g, hg, -⟩ := (h.exists_named f.1).1 ⟨f, List.mem_cons_self, rfl⟩
    cases hg
  | f :: fs, g :: gs, h, hfs, hgs => by
    obtain ⟨f', hf', hname⟩ := (h.exists_named g.1).2 ⟨g, List.mem_cons_self, rfl⟩
    obtain ⟨g', hg', hname'⟩ := (h.exists_named f.1).1 ⟨f, List.mem_cons_self, rfl⟩
    have heq : f.1 = g.1 := String.le_antisymm (hname ▸ le_of_mem_pairwise hfs hf')
      (hname' ▸ le_of_mem_pairwise hgs hg')
    have hown := h f.1
    rw [filter_cons_own, heq, filter_cons_own] at hown
    cases hown with
    | cons hR htail =>
      refine .cons ⟨heq, hR⟩ (Paired.forall₂_of_pairwise (fun name => ?_) hfs.of_cons hgs.of_cons)
      by_cases hne : g.1 = name
      · rwa [← hne]
      · have hother := h name
        rwa [List.filter_cons_of_neg (by simpa [heq] using hne), List.filter_cons_of_neg (by simpa using hne)] at hother

/-- Fields that go with each other name by name are sorted alike. -/
theorem Paired.forall₂_sorted (h : Paired R fs gs) :
    List.Forall₂ (fun f g => f.1 = g.1 ∧ R f.2 g.2) (sorted fs) (sorted gs) :=
  Paired.forall₂_of_pairwise (fun name => by rw [filter_sorted, filter_sorted]; exact h name) (sorted_pairwise fs)
    (sorted_pairwise gs)

theorem Paired.of_rearranged {fs' : List (String × α)} (h : Paired R fs' gs) (hfs : Rearranged fs fs') :
    Paired R fs gs := fun name => by
  rw [hfs name]
  exact h name

theorem paired_of_forall₂ (h : List.Forall₂ (fun f g => f.1 = g.1 ∧ R f.2 g.2) fs gs) : Paired R fs gs := by
  intro name
  induction h with
  | nil => exact .nil
  | @cons f g fs gs hfg _ ih =>
    obtain ⟨hname, hR⟩ := hfg
    rw [List.filter_cons, List.filter_cons, hname]
    split
    · exact .cons hR ih
    · exact ih

end Paired

/-- Sorted fields are determined by those of each name. -/
theorem Rearranged.eq_of_pairwise (h : Rearranged fs gs) (hfs : fs.Pairwise fun f g => f.1 ≤ g.1)
    (hgs : gs.Pairwise fun f g => f.1 ≤ g.1) : fs = gs := by
  have hpaired : Paired (· = ·) fs gs := fun name => by
    rw [h name]
    exact List.forall₂_same.2 fun _ _ => rfl
  rw [← List.forall₂_eq_eq_eq]
  exact (hpaired.forall₂_of_pairwise hfs hgs).imp fun _ _ hfg => Prod.ext hfg.1 hfg.2

/-- **Sorting undoes a rearrangement.** -/
theorem Rearranged.sorted_eq (h : Rearranged fs gs) : sorted fs = sorted gs :=
  Rearranged.eq_of_pairwise (fun name => by rw [filter_sorted, filter_sorted, h name]) (sorted_pairwise fs)
    (sorted_pairwise gs)

/-- Sorting is a rearrangement. -/
theorem rearranged_sorted (fs : List (String × α)) : Rearranged fs (sorted fs) := fun name =>
  (filter_sorted fs name).symm

theorem Rearranged.refl (fs : List (String × α)) : Rearranged fs fs := fun _ => rfl

/-- Fields with distinct names may stand in any order. -/
theorem Rearranged.of_perm (h : fs.Perm gs) (hnames : (fs.map Prod.fst).Nodup) : Rearranged fs gs := fun name => by
  have hfs : fs.Pairwise fun f g => f.1 ≠ g.1 := List.pairwise_map.1 hnames
  have hgs : gs.Pairwise fun f g => f.1 ≠ g.1 := (h.pairwise_iff fun hne => Ne.symm hne).1 hfs
  refine List.Perm.eq_of_pairwise (fun f g hf hg hne _ => absurd ?_ hne) (hfs.filter _) (hgs.filter _) (h.filter _)
  rw [beq_iff_eq.1 (List.mem_filter.1 hf).2, beq_iff_eq.1 (List.mem_filter.1 hg).2]

theorem Rearranged.map (h : Rearranged fs gs) (g : α → β) :
    Rearranged (fs.map fun f => (f.1, g f.2)) (gs.map fun f => (f.1, g f.2)) := fun name => by
  rw [List.filter_map, List.filter_map]
  exact congrArg _ (h name)

end Stable

end ValueBridge.Fields
