import Mathlib.Data.List.Forall2
/-!
# Lists with their indices, and lists side by side

What is done to a list and the places of its elements commutes with what is done to the elements alone.  Two lists that
go with the same third go with each other, element by element.
-/
namespace ValueBridge

variable {α β γ δ : Type}

theorem map_mapIdx (f : Nat → α → β) (g : β → γ) (as : List α) : (as.mapIdx f).map g = as.mapIdx fun i a => g (f i a) :=
  List.ext_getElem? fun i => by simp [Function.comp_def]

theorem mapIdx_map (f : α → β) (g : Nat → β → γ) (as : List α) : (as.map f).mapIdx g = as.mapIdx fun i a => g i (f a) :=
  List.ext_getElem? fun i => by simp [Function.comp_def]

theorem mapIdx_const (f : α → β) (as : List α) : (as.mapIdx fun _ a => f a) = as.map f :=
  List.ext_getElem? fun i => by simp

/-- Lists side by side have the same image if their elements do. -/
theorem map_eq_map_of_forall₂ {f : α → γ} {g : β → γ} {as : List α} {bs : List β}
    (h : List.Forall₂ (fun a b => f a = g b) as bs) : as.map f = bs.map g := by
  induction h with
  | nil => rfl
  | cons hab _ ih => exact congrArg₂ List.cons hab ih

theorem forall₂_mapIdx {R : α → β → Prop} {S : γ → δ → Prop} : ∀ {as : List α} {bs : List β} {f : Nat → α → γ}
    {g : Nat → β → δ}, List.Forall₂ R as bs → (∀ i a b, R a b → S (f i a) (g i b)) →
    List.Forall₂ S (as.mapIdx f) (bs.mapIdx g)
  | [], _, _, _, .nil, _ => .nil
  | _ :: _, _ :: _, _, _, .cons h hs, hS => by
    rw [List.mapIdx_cons, List.mapIdx_cons]
    exact .cons (hS 0 _ _ h) (forall₂_mapIdx hs fun i => hS (i + 1))

theorem forall₂_of_mapIdx {R : β → γ → Prop} {S : α → γ → Prop} : ∀ {as : List α} {cs : List γ} {f : Nat → α → β},
    List.Forall₂ R (as.mapIdx f) cs → (∀ i a c, R (f i a) c → S a c) → List.Forall₂ S as cs
  | [], _, _, .nil, _ => .nil
  | a :: as, cs, f, h, hS => by
    rw [List.mapIdx_cons] at h
    cases h with
    | cons h hs => exact .cons (hS 0 _ _ h) (forall₂_of_mapIdx hs fun i => hS (i + 1))

theorem forall₂_through {R : α → β → Prop} {S : α → γ → Prop} {T : β → γ → Prop} {as : List α} {bs : List β}
    {cs : List γ} (h : List.Forall₂ R as bs) (h' : List.Forall₂ S as cs) (hT : ∀ a b c, R a b → S a c → T b c) :
    List.Forall₂ T bs cs := by
  induction h generalizing cs with
  | nil =>
    cases h'
    exact .nil
  | cons hR _ ih =>
    cases h' with
    | cons hS hrest => exact .cons (hT _ _ _ hR hS) (ih hrest)

/-- What goes with each element of a list makes up a list that goes with it. -/
theorem exists_forall₂ {R : α → β → Prop} : ∀ {as : List α}, (∀ a ∈ as, ∃ b, R a b) → ∃ bs, List.Forall₂ R as bs
  | [], _ => ⟨[], .nil⟩
  | a :: as, h => by
    obtain ⟨⟨b, hb⟩, hrest⟩ := List.forall_mem_cons.1 h
    obtain ⟨bs, hbs⟩ := exists_forall₂ hrest
    exact ⟨b :: bs, .cons hb hbs⟩

/-- Lists that go with each other have something of a kind at the same time, if the kinds go with each other too. -/
theorem exists_mem_iff_of_forall₂ {R : α → β → Prop} {P : α → Prop} {Q : β → Prop} {as : List α} {bs : List β}
    (h : List.Forall₂ R as bs) (hPQ : ∀ a b, R a b → (P a ↔ Q b)) : (∃ a ∈ as, P a) ↔ ∃ b ∈ bs, Q b := by
  induction h with
  | nil => simp only [List.not_mem_nil, false_and, exists_false]
  | cons hR _ ih => rw [List.exists_mem_cons_iff, List.exists_mem_cons_iff, hPQ _ _ hR, ih]

theorem forall_mem_iff_of_forall₂ {R : α → β → Prop} {P : α → Prop} {Q : β → Prop} {as : List α} {bs : List β}
    (h : List.Forall₂ R as bs) (hPQ : ∀ a ∈ as, ∀ b, R a b → (P a ↔ Q b)) : (∀ a ∈ as, P a) ↔ ∀ b ∈ bs, Q b := by
  induction h with
  | nil => exact iff_of_true (List.forall_mem_nil P) (List.forall_mem_nil Q)
  | cons hR _ ih =>
    obtain ⟨hhead, hrest⟩ := List.forall_mem_cons.1 hPQ
    rw [List.forall_mem_cons, List.forall_mem_cons, hhead _ hR, ih hrest]

/-- In lists that go with each other, so does what stands at the same place. -/
theorem rel_getElem? {R : α → β → Prop} {as : List α} {bs : List β} (h : List.Forall₂ R as bs) (i : Nat) :
    Option.Rel R as[i]? bs[i]? := by
  induction h generalizing i with
  | nil => exact .none
  | cons hR _ ih =>
    cases i with
    | zero => exact .some hR
    | succ i => exact ih i

theorem forall₂_range (as : List α) : List.Forall₂ (fun i a => as[i]? = some a) (List.range as.length) as := by
  rw [List.forall₂_iff_get]
  refine ⟨List.length_range, fun i hi hi' => ?_⟩
  rw [List.get_eq_getElem, List.getElem_range, List.get_eq_getElem, List.getElem?_eq_getElem]

/-- In two lists that go with each other under the same keys, what is found under a key goes with what is found. -/
theorem lookup_of_forall₂ {κ : Type} [BEq κ] {R : α → β → Prop} {as : List (κ × α)} {bs : List (κ × β)}
    (h : List.Forall₂ (fun a b => a.1 = b.1 ∧ R a.2 b.2) as bs) (k : κ) :
    (∀ a, as.lookup k = some a → ∃ b, bs.lookup k = some b ∧ R a b) ∧ (as.lookup k = none → bs.lookup k = none) := by
  induction h with
  | nil => exact ⟨fun a ha => (nomatch ha), fun _ => rfl⟩
  | @cons a b as bs hab _ ih =>
    obtain ⟨key, a⟩ := a
    obtain ⟨_, b⟩ := b
    obtain ⟨rfl, hR⟩ := hab
    rw [List.lookup_cons, List.lookup_cons]
    cases k == key with
    | true => exact ⟨fun a' ha => by cases ha; exact ⟨b, rfl, hR⟩, fun hnone => by cases hnone⟩
    | false => exact ih

/-- What is found under a key stands at the first place that has it. -/
theorem findIdx?_of_lookup {κ : Type} [BEq κ] [LawfulBEq κ] {k : κ} {a : α} : ∀ {as : List (κ × α)},
    as.lookup k = some a → ∃ i, (as.map Prod.fst).findIdx? (· == k) = some i ∧ as[i]? = some (k, a)
  | (key, b) :: as, h => by
    rw [List.lookup_cons] at h
    rw [List.map_cons, List.findIdx?_cons, Bool.beq_comm]
    cases hkey : k == key with
    | true =>
      rw [hkey] at h
      cases h
      exact ⟨0, rfl, by rw [eq_of_beq hkey]; rfl⟩
    | false =>
      rw [hkey] at h
      obtain ⟨i, hi, ha⟩ := findIdx?_of_lookup h
      exact ⟨i + 1, by rw [hi]; rfl, ha⟩

/-- Two lists that go with each other are the two sides of one list of pairs. -/
theorem exists_pairs {R : α → β → Prop} {as : List α} {bs : List β} (h : List.Forall₂ R as bs) :
    ∃ ps : List (α × β), as = ps.map Prod.fst ∧ bs = ps.map Prod.snd ∧ ∀ p ∈ ps, R p.1 p.2 := by
  induction h with
  | nil => exact ⟨[], rfl, rfl, fun p hp => by cases hp⟩
  | @cons a b as bs hR _ ih =>
    obtain ⟨ps, rfl, rfl, hps⟩ := ih
    exact ⟨(a, b) :: ps, rfl, rfl, List.forall_mem_cons.2 ⟨hR, hps⟩⟩

theorem forall₂_zipped {R : α → γ → Prop} {S : β → δ → Prop} {as : List α} {bs : List β} {ps : List (γ × δ)}
    (h : List.Forall₂ (fun a p => R a p.1) as ps) (h' : List.Forall₂ (fun b p => S b p.2) bs ps) :
    List.Forall₂ (fun q p => R q.1 p.1 ∧ S q.2 p.2) (as.zip bs) ps := by
  induction h generalizing bs with
  | nil =>
    cases h'
    exact .nil
  | cons hR _ ih =>
    cases h' with
    | cons hS hrest => exact .cons ⟨hR, hS⟩ (ih hrest)

theorem forall₂_zip {R : α → β → Prop} {S : γ → δ → Prop} {as : List α} {bs : List β} {cs : List γ} {ds : List δ}
    (h : List.Forall₂ R as bs) (h' : List.Forall₂ S cs ds) :
    List.Forall₂ (fun p q => R p.1 q.1 ∧ S p.2 q.2) (as.zip cs) (bs.zip ds) := by
  induction h generalizing cs ds with
  | nil => exact .nil
  | cons hR _ ih =>
    cases h' with
    | nil => exact .nil
    | cons hS hrest => exact .cons ⟨hR, hS⟩ (ih hrest)

end ValueBridge
