import ValueBridge.Proofs.Convert.Clash
import ValueBridge.Proofs.Convert.Inherited
/-!
# Encoding with a full table

The number of live handles is limited, and only where it is reached does the limit make a difference: a computation that
`Scales` does with a higher limit what it did, unless it ended because the table was full.  Encoders scale, so an error of
an encoder is that of the draft or a full table (`Source.error_of_build`).

Hence heterogeneous types are reported for a draft that clashes, and else only where the table is full at the moment at
which a list or a map is built of its parts (`Source.heterogeneous_iff_clashes`).  That the latter happens is seen with a
list of two equal parts (`Source.heterogeneous_of_full_table`).
-/
namespace ValueBridge

open ValueBridge.Convert

variable {m m' : Memory} {limit : Nat} {ε ε' α β : Type}

/-- The same engine with another limit. -/
def Memory.withLimit (m : Memory) (limit : Nat) : Memory := { m with limit := limit }

/-- With a higher limit the computation does what it did, but for errors that the limit excuses. -/
def Scales (excused : (limit : Nat) → ε → Prop) (p : EStateM ε Memory α) : Prop :=
  ∀ (m : Memory) (limit : Nat), m.limit ≤ limit →
    Ends (p m) (fun a m' => m'.limit = m.limit ∧ p (m.withLimit limit) = .ok a (m'.withLimit limit))
      fun e m' => p (m.withLimit limit) = .error e (m'.withLimit limit) ∨ excused m.limit e

/-- The call failed because the table was full. -/
def Failure.IsFull (limit : Nat) (e : Failure) : Prop := ∃ n, limit ≤ n ∧ e = .tableFull n

/-- The conversion failed because the table was full. -/
def Crowded (limit : Nat) (e : ConvertError) : Prop :=
  ∃ why, Failure.IsFull limit why ∧ (e.cause = .engine why ∨ ∃ kind, e.cause = .heterogeneous kind why)

/-! ## Calls -/

namespace Memory

theorem scales_inspect {f : Memory → Except Failure α} (hf : ∀ m limit, f (m.withLimit limit) = f m) :
    Scales Failure.IsFull (inspect f) := by
  intro m limit _
  unfold inspect
  rw [hf]
  cases f m with
  | ok a => exact ⟨rfl, rfl⟩
  | error e => exact .inl rfl

theorem scales_insert (v : Stored) : Scales Failure.IsFull (insert v) := by
  intro m limit hle
  unfold insert
  split
  · rename_i hfull
    exact .inr ⟨m.live, hfull, rfl⟩
  · rename_i hroom
    have hroom' : ¬(m.withLimit limit).limit ≤ (m.withLimit limit).live := by
      change ¬limit ≤ m.live
      omega
    rw [if_neg hroom']
    exact ⟨rfl, rfl⟩

theorem scales_insertFrom {f : Memory → Except Failure Stored} (hf : ∀ m limit, f (m.withLimit limit) = f m) :
    Scales Failure.IsFull (insertFrom f) := by
  intro m limit hle
  unfold insertFrom
  rw [hf]
  cases f m with
  | ok v => exact scales_insert v m limit hle
  | error e => exact .inl rfl

/-- **Nothing but the room in the table depends on the limit.** -/
theorem scales_call : ∀ {r : Request}, r.operation ≠ .execute →
    Scales Failure.IsFull (Engine.call r : Call Memory r.Reply)
  | .isNull _, _ | .type _, _ | .payload _, _ | .count _ _, _ | .name _ _ _, _ => scales_inspect fun _ _ => rfl
  | .createNull t, _ => scales_insert (.null t)
  | .item _ _ _, _ | .role _ _, _ | .createPayload _, _ | .createList _, _ | .createStruct _, _ | .createMap _ _, _ =>
    scales_insertFrom fun _ _ => rfl
  | .execute _ _, hr => absurd rfl hr

theorem destroyAll_withLimit (limit : Nat) : ∀ (hs : List Handle) (m : Memory),
    Engine.destroyAll hs (m.withLimit limit) = (Engine.destroyAll hs m).withLimit limit
  | [], _ => rfl
  | h :: hs, m => by
    have hdestroy : (m.withLimit limit).destroy h = (m.destroy h).withLimit limit := by
      unfold destroy
      change (if (m.entries.lookup h).isSome then _ else _) = _
      split <;> rfl
    change Engine.destroyAll hs ((m.withLimit limit).destroy h) = (Engine.destroyAll hs (m.destroy h)).withLimit limit
    rw [hdestroy, destroyAll_withLimit limit hs]

theorem limit_destroyAll : ∀ (hs : List Handle) (m : Memory), (Engine.destroyAll hs m).limit = m.limit
  | [], _ => rfl
  | h :: hs, m => by
    have hdestroy : (m.destroy h).limit = m.limit := by
      unfold destroy
      split <;> rfl
    change (Engine.destroyAll hs (m.destroy h)).limit = m.limit
    rw [limit_destroyAll hs, hdestroy]

end Memory

/-! ## Conversions -/

namespace Scales

variable {excused : (limit : Nat) → ε → Prop} {p : EStateM ε Memory α}

theorem bind {f : α → EStateM ε Memory β} (hp : Scales excused p) (hf : ∀ a, Scales excused (f a)) :
    Scales excused (p >>= f) := by
  intro m limit hle
  refine (hp m limit hle).bind (fun a m₁ h₁ => ?_) fun e m₁ h₁ => h₁.imp_left fun h₁ => ?_
  · obtain ⟨hlimit, hraised⟩ := h₁
    have hbind : (p >>= f) (m.withLimit limit) = f a (m₁.withLimit limit) := by
      simp only [Bind.bind, EStateM.bind, hraised]
    rw [hbind, ← hlimit]
    exact hf a m₁ limit (hlimit ▸ hle)
  · simp only [Bind.bind, EStateM.bind, h₁]

theorem adapt {excused' : (limit : Nat) → ε' → Prop} {f : ε → ε'} (hp : Scales excused p)
    (hf : ∀ limit e, excused limit e → excused' limit (f e)) : Scales excused' (p.adaptExcept f) := by
  intro m limit hle
  refine ((hp m limit hle).mono (fun a m' h => ?_) fun _ _ h => h).adapt fun e m' h => h.imp (fun h => ?_) (hf _ e)
  · exact ⟨h.1, by simp only [EStateM.adaptExcept, h.2]⟩
  · simp only [EStateM.adaptExcept, h]

theorem releasing (hs : List Handle) (hp : Scales excused p) : Scales excused (Convert.releasing hs p) := by
  intro m limit hle
  refine (hp m limit hle).releasing (fun a m' h => ?_) fun e m' h => h.imp_left fun h => ?_
  · exact ⟨by rw [Memory.limit_destroyAll, h.1], by simp only [Convert.releasing, h.2, Memory.destroyAll_withLimit]⟩
  · simp only [Convert.releasing, h, Memory.destroyAll_withLimit]

theorem orReleasing (hs : List Handle) (hp : Scales excused p) : Scales excused (Convert.orReleasing hs p) := by
  intro m limit hle
  refine ((hp m limit hle).mono (fun a m' h => ?_) fun _ _ h => h).orReleasing fun e m' h => h.imp_left fun h => ?_
  · exact ⟨h.1, by simp only [Convert.orReleasing, h.2]⟩
  · simp only [Convert.orReleasing, h, Memory.destroyAll_withLimit]

end Scales

theorem Crowded.within {e : ConvertError} (place : Place) (h : Crowded limit e) : Crowded limit (e.within place) := by
  rwa [Crowded, ConvertError.cause_within]

theorem inherited_scales : Inherited (σ := Memory) fun p => Scales Crowded p where
  ask hr := (Memory.scales_call hr).adapt fun _ why h => ⟨why, h, .inl rfl⟩
  createList hs := (Memory.scales_call (r := .createList hs) nofun).adapt fun _ why h => ⟨why, h, .inr ⟨.list, rfl⟩⟩
  createMap ks vs :=
    (Memory.scales_call (r := .createMap ks vs) nofun).adapt fun _ why h => ⟨why, h, .inr ⟨.map, rfl⟩⟩
  pure _ _ _ _ := ⟨rfl, rfl⟩
  throw _ _ _ _ := .inl rfl
  bind := .bind
  within place hp := hp.adapt fun _ _ => .within place
  releasing := .releasing
  orReleasing := .orReleasing

namespace Source

open Draft (Clashes)

variable {c : Config} {s : Source} {e : ConvertError}

/-- **An error of an encoder is that of its draft, or a full table.** -/
theorem error_of_build (hm : m.Issued) (h : s.build c m = .error e m') :
    (s.draft c).value c.maxDepth = .error e ∨ Crowded m.limit e := by
  have hscales := inherited_scales.source (c := c) s c.maxDepth m (m.limit + (m.live + (s.draft c).parts + 1)) (by omega)
  rw [build] at h
  rw [h] at hscales
  refine hscales.imp_left fun hraised => ?_
  have hbuilds := s.encodes_encode (σ := Memory) c c.maxDepth
    (m.withLimit (m.limit + (m.live + (s.draft c).parts + 1))) hm
  rw [hraised] at hbuilds
  refine hbuilds.error ⟨trivial, ?_⟩
  change m.live + _ ≤ m.limit + _
  omega

theorem draft_error_of_build (hm : m.Issued) (hroom : m.live + (s.draft c).parts + 1 ≤ m.limit)
    (h : s.build c m = .error e m') : (s.draft c).value c.maxDepth = .error e := by
  have hbuilds := s.encodes_encode (σ := Memory) c c.maxDepth m hm
  rw [build] at h
  rw [h] at hbuilds
  exact hbuilds.error ⟨trivial, hroom⟩

/-- With enough room an encoder fails exactly as its draft does. -/
theorem build_error_iff (hm : m.Issued) (hroom : m.live + (s.draft c).parts + 1 ≤ m.limit) :
    (∃ m', s.build c m = .error e m') ↔ (s.draft c).value c.maxDepth = .error e := by
  constructor
  · rintro ⟨m', h⟩
    exact draft_error_of_build hm hroom h
  · intro h
    cases hbuild : s.build c m with
    | ok k m' =>
      obtain ⟨v, hv, -⟩ := moves_of_build (s := m) hm hbuild
      cases h.symm.trans hv
    | error e' m' =>
      cases h.symm.trans (draft_error_of_build hm hroom hbuild)
      exact ⟨m', rfl⟩

/-- The table was full when a list or a map was built of its parts. -/
def FullAtCollection (limit : Nat) (e : ConvertError) : Prop :=
  ∃ kind n, limit ≤ n ∧ e.cause = .heterogeneous kind (.tableFull n)

/-- A failed conversion is reported as one of heterogeneous types for a draft that clashes, or where the table was full
when a list or a map was built. -/
theorem kind_of_build (hm : m.Issued) (h : s.build c m = .error e m') : e.kind = .heterogeneousType ↔
    Clashes c (s.draft c) c.maxDepth ∧ (s.draft c).value c.maxDepth = .error e ∨ FullAtCollection m.limit e := by
  constructor
  · intro hkind
    rcases error_of_build hm h with hdraft | ⟨why, ⟨n, hn, rfl⟩, hcause | ⟨kind, hcause⟩⟩
    · exact .inl ⟨((s.made_draft c).clashes hdraft hkind).1, hdraft⟩
    · rw [ConvertError.kind, hcause] at hkind
      cases hkind
    · exact .inr ⟨kind, n, hn, hcause⟩
  · rintro (⟨hclashes, hdraft⟩ | ⟨kind, n, -, hcause⟩)
    · obtain ⟨e', he', hkind⟩ := hclashes.exists_error
      cases hdraft.symm.trans he'
      exact hkind
    · rw [ConvertError.kind, hcause]
      rfl

/-- The only failures of the engine that are taken for heterogeneous types are that parts have no common type, and that
the table is full. -/
theorem isMixed_of_build {kind : CollectionKind} {why : Failure} (hm : m.Issued) (h : s.build c m = .error e m')
    (he : e.cause = .heterogeneous kind why) : why.IsMixed ∨ why.IsFull m.limit := by
  rcases error_of_build hm h with hdraft | ⟨why', hfull, hcause | ⟨kind', hcause⟩⟩
  · obtain ⟨-, kind', why', hcause, hmixed⟩ := (s.made_draft c).clashes hdraft (by rw [ConvertError.kind, he]; rfl)
    cases he.symm.trans hcause
    exact .inl hmixed
  · cases he.symm.trans hcause
  · cases he.symm.trans hcause
    exact .inr hfull

/-- **Heterogeneous types are reported for a draft that clashes, and else where the table is full when a list or a map is
built of its parts.**  A draft that clashes is refused for that or for a full table, and always for that with enough
room. -/
theorem heterogeneous_iff_clashes (c : Config) (s : Source) (hm : m.Reachable) :
    (∀ e m', s.build c m = .error e m' →
      (e.kind = .heterogeneousType ↔
        Clashes c (s.draft c) c.maxDepth ∧ (s.draft c).value c.maxDepth = .error e ∨ FullAtCollection m.limit e) ∧
      ∀ kind why, e.cause = .heterogeneous kind why → why.IsMixed ∨ why.IsFull m.limit) ∧
    (Clashes c (s.draft c) c.maxDepth → ∃ e m', s.build c m = .error e m' ∧
      (e.kind = .heterogeneousType ∧ (s.draft c).value c.maxDepth = .error e ∨ Crowded m.limit e)) ∧
    (m.live + (s.draft c).parts + 1 ≤ m.limit →
      ((∃ e m', s.build c m = .error e m' ∧ e.kind = .heterogeneousType) ↔ Clashes c (s.draft c) c.maxDepth)) := by
  refine ⟨fun e m' h => ⟨kind_of_build hm.issued h, fun _ _ => isMixed_of_build hm.issued h⟩, fun hclashes => ?_,
    fun hroom => ?_⟩
  · obtain ⟨e, hdraft, hkind⟩ := hclashes.exists_error
    cases h : s.build c m with
    | ok k m' =>
      obtain ⟨v, hv, -⟩ := moves_of_build (s := m) hm.issued h
      cases hdraft.symm.trans hv
    | error e' m' =>
      refine ⟨e', m', rfl, (error_of_build hm.issued h).imp_left fun hdraft' => ?_⟩
      cases hdraft.symm.trans hdraft'
      exact ⟨hkind, hdraft⟩
  · rw [← (s.made_draft c).heterogeneous_iff]
    exact exists_congr fun e => by rw [exists_and_right, build_error_iff hm.issued hroom]

/-- A boolean beside a string, on an engine with room for both and one more value. -/
theorem heterogeneous_iff_clashes_mixed :
    let s := sequence [scalar (.bool true), scalar (.string "x")]
    ∃ e m', s.build {} ({ limit := 3 } : Memory) = .error e m' ∧ e.kind = .heterogeneousType := by
  intro s
  have henter : Draft.enter {} .list false 64 = .ok 63 := rfl
  have hparts : Draft.Become 63 [.ofPayload (.bool true), .ofPayload (.string "x")]
      [.payload (.bool true), .payload (.string "x")] := .cons rfl (.cons rfl .nil)
  have hclashes : Clashes {} (s.draft {}) 64 := .elements henter hparts rfl rfl
  exact ((heterogeneous_iff_clashes {} s (.empty 3)).2.2 (by decide)).2 hclashes

/-- Two equal booleans have a common type, but on an engine with no room for the list they are said to have none. -/
theorem heterogeneous_of_full_table :
    let s := sequence [scalar (.bool true), scalar (.bool true)]
    (∃ e m', s.build {} ({ limit := 2 } : Memory) = .error e m' ∧ e.kind = .heterogeneousType) ∧
      ¬Clashes {} (s.draft {}) 64 := by
  intro s
  refine ⟨⟨_, _, rfl, rfl⟩, fun hclashes => ?_⟩
  obtain ⟨e, he, -⟩ := hclashes.exists_error
  cases he

end Source
end ValueBridge
