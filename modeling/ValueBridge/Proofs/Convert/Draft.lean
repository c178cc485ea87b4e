import ValueBridge.Convert.Source
import ValueBridge.Proofs.Results
import Mathlib.Algebra.GroupWithZero.Nat
import Mathlib.Data.List.Forall2
/-!
# Drafts

A draft is what an encoder means to build, said without an engine: the stored value that it comes to within the levels
that are left, or the error that it ends with, and the number of values that it builds on the way.  The drafts of host
values, JSON values and sources follow their encoders constructor by constructor; parts come before the whole, in the
same order, so that of several errors the same one is met first.
-/
namespace ValueBridge

/-- What becomes of a value within the levels that are left. -/
structure Draft where
  value : (left : Nat) → Except ConvertError Stored
  /-- How many values are built before this one. -/
  parts : Nat

namespace Draft

/-- What the engine answers, with its failure as an error. -/
def answer {α : Type} (onFailure : Failure → Cause) (r : Except Failure α) : Except ConvertError α :=
  r.mapError fun e => ⟨onFailure e, []⟩

/-- The result with its error located at a step. -/
def within {α : Type} (place : Place) (r : Except ConvertError α) : Except ConvertError α :=
  r.mapError (ConvertError.within place)

/-- All results, or the first error. -/
def all : List (Except ConvertError Stored) → Except ConvertError (List Stored)
  | [] => .ok []
  | r :: rs => r.bind fun v => (all rs).map (v :: ·)

/-- All pairs of results, or the first error, the first of a pair before the second. -/
def allPairs : List (Except ConvertError Stored × Except ConvertError Stored) →
    Except ConvertError (List Stored × List Stored)
  | [] => .ok ([], [])
  | (r, r') :: rs => r.bind fun v => r'.bind fun w => (allPairs rs).map fun p => (v :: p.1, w :: p.2)

theorem forall₂_all : ∀ {rs : List (Except ConvertError Stored)} {vs : List Stored}, all rs = .ok vs →
    List.Forall₂ (fun r v => r = .ok v) rs vs
  | [], vs, h => by
    cases h
    exact .nil
  | r :: rs, vs, h => by
    obtain ⟨v, hv, h⟩ := bind_eq_ok.1 h
    obtain ⟨ws, hws, rfl⟩ := map_eq_ok.1 h
    exact .cons hv (forall₂_all hws)

theorem forall₂_allPairs : ∀ {rs : List (Except ConvertError Stored × Except ConvertError Stored)}
    {p : List Stored × List Stored}, allPairs rs = .ok p →
    List.Forall₂ (fun r v => r.1 = .ok v) rs p.1 ∧ List.Forall₂ (fun r v => r.2 = .ok v) rs p.2
  | [], p, h => by
    cases h
    exact ⟨.nil, .nil⟩
  | (r, r') :: rs, p, h => by
    obtain ⟨v, hv, h⟩ := bind_eq_ok.1 h
    obtain ⟨w, hw, h⟩ := bind_eq_ok.1 h
    obtain ⟨q, hq, rfl⟩ := map_eq_ok.1 h
    have hrest := forall₂_allPairs hq
    exact ⟨.cons hv hrest.1, .cons hw hrest.2⟩

theorem length_all {rs : List (Except ConvertError Stored)} {vs : List Stored} (h : all rs = .ok vs) :
    vs.length = rs.length := (forall₂_all h).length_eq.symm

theorem length_allPairs {rs : List (Except ConvertError Stored × Except ConvertError Stored)}
    {p : List Stored × List Stored} (h : allPairs rs = .ok p) : p.1.length = rs.length ∧ p.2.length = rs.length :=
  ⟨(forall₂_allPairs h).1.length_eq.symm, (forall₂_allPairs h).2.length_eq.symm⟩

/-! ## Leaves -/

def ofError (e : ConvertError) : Draft := ⟨fun _ => .error e, 0⟩

def payload (p : Payload) : Except ConvertError Stored :=
  answer .engine ((Stored.checkPayload p).map fun _ => .payload p)

def ofPayload (p : Payload) : Draft := ⟨fun _ => payload p, 0⟩

def null : Draft := ⟨fun _ => .ok (.null .any), 0⟩

def ofExcept : Except ConvertError Payload → Draft
  | .ok p => ofPayload p
  | .error e => ofError e

/-! ## Decimals in one collection -/

def restatedPayload : Payload → Except ConvertError Stored
  | .int128 n => (restatedInt128 n.val).bind payload
  | p => .error (p.mismatch [.int128])

def restated (v : Stored) : Except ConvertError Stored := (answer .engine v.asPayload).bind restatedPayload

def restateAll : List Stored → Except ConvertError (List Stored)
  | [] => .ok []
  | v :: vs =>
    if v.type.tag = .int128 then (restated v).bind fun w => (restateAll vs).map (w :: ·)
    else (restateAll vs).map (v :: ·)

def aligned (vs : List Stored) : Except ConvertError (List Stored) :=
  let tags := vs.map (·.type.tag)
  if tags.contains .decimal && tags.contains .int128 then restateAll vs else .ok vs

theorem length_restateAll : ∀ {vs ws : List Stored}, restateAll vs = .ok ws → ws.length = vs.length
  | [], ws, h => by
    cases h
    rfl
  | v :: vs, ws, h => by
    rw [restateAll] at h
    split at h
    · obtain ⟨w, -, h⟩ := bind_eq_ok.1 h
      obtain ⟨rest, hrest, rfl⟩ := map_eq_ok.1 h
      rw [List.length_cons, List.length_cons, length_restateAll hrest]
    · obtain ⟨rest, hrest, rfl⟩ := map_eq_ok.1 h
      rw [List.length_cons, List.length_cons, length_restateAll hrest]

theorem length_aligned {vs ws : List Stored} (h : aligned vs = .ok ws) : ws.length = vs.length := by
  unfold aligned at h
  dsimp only at h
  split at h
  · exact length_restateAll h
  · cases h
    rfl

/-! ## Collections -/

def enter (c : Config) (kind : CollectionKind) (isEmpty : Bool) (left : Nat) : Except ConvertError Nat :=
  if isEmpty then .error ⟨.emptyCollection kind, []⟩ else c.descend left

/-- The values that are built for parts: the parts, and what they are built from. -/
def total (ds : List Draft) : Nat := (ds.map (·.parts + 1)).sum

def list (c : Config) (items : List Draft) : Draft where
  value left :=
    (enter c .list items.isEmpty left).bind fun inner =>
      (all (items.mapIdx fun i d => within (.element i) (d.value inner))).bind fun vs =>
        (aligned vs).bind fun vs => answer (.heterogeneous .list) (Stored.listOf? vs)
  parts := total items

def struct (c : Config) (fields : List (String × Draft)) : Draft where
  value left :=
    (enter c .struct fields.isEmpty left).bind fun inner =>
      (all ((Fields.sorted fields).map fun f => within (.field f.1) (f.2.value inner))).bind fun vs =>
        answer .engine (Stored.structOf? (((Fields.sorted fields).map Prod.fst).zip vs))
  parts := total (fields.map Prod.snd)

def map (c : Config) (entries : List (Draft × Draft)) : Draft where
  value left :=
    (enter c .map entries.isEmpty left).bind fun inner =>
      (allPairs (entries.mapIdx fun i e =>
        (within (.mapEntry i) (e.1.value inner), within (.mapEntry i) (e.2.value inner)))).bind fun p =>
          (aligned p.1).bind fun ks => (aligned p.2).bind fun vs =>
            answer (.heterogeneous .map) (Stored.mapOf? (ks.zip vs))
  parts := total (entries.map Prod.fst) + total (entries.map Prod.snd)

end Draft

/-! ## What can be encoded -/

namespace HostValue

mutual
def draft (c : Config) : HostValue → Draft
  | null => .null
  | scalar s => .ofExcept s.toPayload
  | list items => .list c (draftItems c items)
  | struct fields => .struct c (draftFields c fields)
  | map entries => .map c (draftEntries c entries)
  | node n => .ofError (node n).refused
  | rel r => .ofError (rel r).refused
  | path p => .ofError (path p).refused
def draftItems (c : Config) : List HostValue → List Draft
  | [] => []
  | v :: vs => draft c v :: draftItems c vs
def draftFields (c : Config) : List (String × HostValue) → List (String × Draft)
  | [] => []
  | (name, v) :: fs => (name, draft c v) :: draftFields c fs
def draftEntries (c : Config) : List (HostValue × HostValue) → List (Draft × Draft)
  | [] => []
  | (k, v) :: es => (draft c k, draft c v) :: draftEntries c es
end

theorem draftItems_eq_map (c : Config) : ∀ vs : List HostValue, draftItems c vs = vs.map (draft c)
  | [] => rfl
  | _ :: vs => congrArg (_ :: ·) (draftItems_eq_map c vs)

theorem draftEntries_eq_map (c : Config) : ∀ es : List (HostValue × HostValue),
    draftEntries c es = es.map fun e => (e.1.draft c, e.2.draft c)
  | [] => rfl
  | _ :: es => congrArg (_ :: ·) (draftEntries_eq_map c es)

end HostValue

namespace Json

mutual
def draft (c : Config) : Json → Draft
  | null => .null
  | bool b => .ofPayload (.bool b)
  | number n => .ofExcept (n.toPayload c)
  | string s => .ofPayload (.string s)
  | array items => .list c (draftItems c items)
  | object fields => .struct c (draftFields c fields)
def draftItems (c : Config) : List Json → List Draft
  | [] => []
  | v :: vs => draft c v :: draftItems c vs
def draftFields (c : Config) : List (String × Json) → List (String × Draft)
  | [] => []
  | (name, v) :: fs => (name, draft c v) :: draftFields c fs
end

end Json

namespace Source

mutual
def draft (c : Config) : Source → Draft
  | host v => v.draft c
  | json j => j.draft c
  | scalar s => .ofExcept s.toPayload
  | interval i => .ofPayload (.interval i)
  | absent => .null
  | present s => draft c s
  | shared s => draft c s
  | sequence items => .list c (draftItems c items)
  | fields fs => .struct c (draftFields c fs)
  | entries es => .map c (draftEntries c es)
def draftItems (c : Config) : List Source → List Draft
  | [] => []
  | s :: ss => draft c s :: draftItems c ss
def draftFields (c : Config) : List (String × Source) → List (String × Draft)
  | [] => []
  | (name, s) :: fs => (name, draft c s) :: draftFields c fs
def draftEntries (c : Config) : List (Source × Source) → List (Draft × Draft)
  | [] => []
  | (k, s) :: es => (draft c k, draft c s) :: draftEntries c es
end

theorem draftItems_eq_map (c : Config) : ∀ ss : List Source, draftItems c ss = ss.map (draft c)
  | [] => rfl
  | _ :: ss => congrArg (_ :: ·) (draftItems_eq_map c ss)

theorem draftFields_eq_map (c : Config) : ∀ fs : List (String × Source),
    draftFields c fs = fs.map fun f => (f.1, f.2.draft c)
  | [] => rfl
  | _ :: fs => congrArg (_ :: ·) (draftFields_eq_map c fs)

theorem draftEntries_eq_map (c : Config) : ∀ es : List (Source × Source),
    draftEntries c es = es.map fun e => (e.1.draft c, e.2.draft c)
  | [] => rfl
  | _ :: es => congrArg (_ :: ·) (draftEntries_eq_map c es)

end Source

end ValueBridge
