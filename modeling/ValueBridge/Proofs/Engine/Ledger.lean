import ValueBridge.Proofs.Engine.History
/-!
# The ledger of the handle table

What the changes of the table do one by one, the `Ledger` of all changes so far sums up: how many handles are live,
which they are and what they stand for.  It is kept by every change (`Ledger.undergoes`), so that over a whole run the
table can be read off the history (`ledger_run`).
-/
namespace ValueBridge
namespace Memory

/-- The table as it follows from all changes since the engine was empty. -/
structure Ledger (limit : Nat) (log : List Change) (m : Memory) : Prop where
  limit_eq : m.limit = limit
  increasing : (issuedHandles log).Pairwise fun h k => h.id < k.id
  issued_lt : ∀ h ∈ issuedHandles log, h.id < m.next
  next_eq : m.next = (issuedHandles log).length + 1
  nodup : (m.entries.map Prod.fst).Nodup
  live_le : m.live ≤ limit
  live_eq : m.live + log.countP Change.isReleased = (issuedHandles log).length
  invalidDestroys_eq : m.invalidDestroys = .ofNat (log.countP Change.isMissed)
  released_issued : ∀ h, .released h ∈ log → h ∈ issuedHandles log
  lookup_iff : ∀ h v, m.entries.lookup h = some v ↔ .issued h v ∈ log ∧ .released h ∉ log

theorem mem_issuedHandles {log : List Change} {h : Handle} : h ∈ issuedHandles log ↔ ∃ v, .issued h v ∈ log := by
  simp only [issuedHandles, List.mem_filterMap]
  constructor
  · rintro ⟨c, hc, hh⟩
    cases c with
    | issued k v =>
      cases hh
      exact ⟨v, hc⟩
    | released | missed => cases hh
  · rintro ⟨v, hv⟩
    exact ⟨_, hv, rfl⟩

theorem length_filter_ne {es : List (Handle × Stored)} {h : Handle} (hnd : (es.map Prod.fst).Nodup)
    (hlive : (es.lookup h).isSome) : (es.filter (·.1 != h)).length + 1 = es.length := by
  obtain ⟨v, hv⟩ := Option.isSome_iff_exists.1 hlive
  have hmem : h ∈ es.map Prod.fst := List.mem_map.2 ⟨(h, v), mem_of_lookup hv, rfl⟩
  have hone : es.countP (·.1 == h) = 1 := by
    have hcount := List.count_eq_one_of_mem hnd hmem
    rwa [List.count, List.countP_map] at hcount
  have hrest : es.countP (fun e => ¬(e.1 == h) = true) = es.countP (·.1 != h) := List.countP_congr fun e _ => by simp
  have hlength := List.length_eq_countP_add_countP (·.1 == h) (l := es)
  rw [hone, hrest] at hlength
  rw [← List.countP_eq_length_filter]
  omega

namespace Ledger

variable {limit : Nat} {log cs : List Change} {m m' : Memory} {h : Handle} {v : Stored}

theorem empty (limit : Nat) : Ledger limit [] { limit := limit } where
  limit_eq := rfl
  increasing := .nil
  issued_lt := fun h hh => by cases hh
  next_eq := rfl
  nodup := List.nodup_nil
  live_le := Nat.zero_le limit
  live_eq := rfl
  invalidDestroys_eq := rfl
  released_issued := fun h hh => by cases hh
  lookup_iff := fun h v => by simp

theorem mem_issuedHandles_of_live (hl : Ledger limit log m) (hlive : (m.entries.lookup h).isSome) :
    h ∈ issuedHandles log := by
  obtain ⟨v, hv⟩ := Option.isSome_iff_exists.1 hlive
  exact mem_issuedHandles.2 ⟨v, ((hl.lookup_iff h v).1 hv).1⟩

/-- A handle is issued. -/
theorem insert (hl : Ledger limit log m) (hi : Memory.insert v m = .ok h m') :
    Ledger limit (log ++ [.issued h v]) m' := by
  unfold Memory.insert at hi
  split at hi
  · cases hi
  rename_i hroom
  cases hi
  have hissued : issuedHandles (log ++ [.issued ⟨m.next⟩ v]) = issuedHandles log ++ [⟨m.next⟩] := by
    simp [issuedHandles, Change.issued?]
  have hfresh : ⟨m.next⟩ ∉ issuedHandles log := fun hmem => Nat.lt_irrefl _ (hl.issued_lt _ hmem)
  exact {
    limit_eq := hl.limit_eq
    increasing := by
      rw [hissued, List.pairwise_append]
      refine ⟨hl.increasing, List.pairwise_singleton _ _, fun a ha b hb => ?_⟩
      rw [List.mem_singleton.1 hb]
      exact hl.issued_lt a ha
    issued_lt := by
      rw [hissued, List.forall_mem_append]
      exact ⟨fun k hk => Nat.lt_succ_of_lt (hl.issued_lt k hk), List.forall_mem_singleton.2 (Nat.lt_succ_self _)⟩
    next_eq := by
      rw [hissued, List.length_append, List.length_singleton]
      exact congrArg (· + 1) hl.next_eq
    nodup := by
      rw [List.map_cons, List.nodup_cons]
      refine ⟨fun hmem => ?_, hl.nodup⟩
      obtain ⟨e, he, heq⟩ := List.mem_map.1 hmem
      have hlookup := Adds.lookup_of_mem_nodup hl.nodup (k := e.1) (v := e.2) he
      dsimp only at heq
      rw [heq] at hlookup
      exact hfresh (hl.mem_issuedHandles_of_live (by rw [hlookup]; rfl))
    live_le := by
      have hlimit := hl.limit_eq
      simp only [live, List.length_cons] at hroom ⊢
      omega
    live_eq := by
      have hlive := hl.live_eq
      rw [hissued]
      simp only [live, List.length_cons, List.countP_append, List.length_append, List.length_nil] at hlive ⊢
      have hnone : List.countP Change.isReleased [.issued ⟨m.next⟩ v] = 0 := rfl
      omega
    invalidDestroys_eq := by
      rw [List.countP_append, hl.invalidDestroys_eq]
      rfl
    released_issued := by
      intro k hk
      rw [hissued]
      rcases List.mem_append.1 hk with hk | hk
      · exact List.mem_append_left _ (hl.released_issued k hk)
      · cases List.mem_singleton.1 hk
    lookup_iff := by
      intro k w
      rw [List.lookup_cons]
      by_cases hk : k = ⟨m.next⟩
      · subst hk
        have hreleased : .released ⟨m.next⟩ ∉ log := fun hmem => hfresh (hl.released_issued _ hmem)
        have hold : .issued ⟨m.next⟩ w ∉ log := fun hmem => hfresh (mem_issuedHandles.2 ⟨w, hmem⟩)
        simp [hreleased, hold, eq_comm]
      · have hne : (k == ⟨m.next⟩) = false := beq_eq_false_iff_ne.2 hk
        simp [hne, hl.lookup_iff, hk] }

/-- A live handle is destroyed. -/
theorem release (hl : Ledger limit log m) (hlive : (m.entries.lookup h).isSome) :
    Ledger limit (log ++ [.released h]) (m.destroy h) := by
  rw [Memory.destroy, if_pos hlive]
  have hissued : issuedHandles (log ++ [.released h]) = issuedHandles log := by simp [issuedHandles, Change.issued?]
  exact {
    limit_eq := hl.limit_eq
    increasing := by rw [hissued]; exact hl.increasing
    issued_lt := by rw [hissued]; exact hl.issued_lt
    next_eq := by rw [hissued]; exact hl.next_eq
    nodup := hl.nodup.sublist (List.filter_sublist.map _)
    live_le := Nat.le_trans (List.length_filter_le _ _) hl.live_le
    live_eq := by
      have hcount := hl.live_eq
      have hlength := length_filter_ne hl.nodup hlive
      have hone : List.countP Change.isReleased [.released h] = 1 := rfl
      rw [hissued, List.countP_append, hone]
      simp only [live] at hcount ⊢
      omega
    invalidDestroys_eq := by
      rw [List.countP_append]
      exact hl.invalidDestroys_eq
    released_issued := by
      intro k hk
      rw [hissued]
      rcases List.mem_append.1 hk with hk | hk
      · exact hl.released_issued k hk
      · cases List.mem_singleton.1 hk
        exact hl.mem_issuedHandles_of_live hlive
    lookup_iff := by
      intro k w
      rw [lookup_filter_ne]
      by_cases hk : k = h <;> simp [hk, hl.lookup_iff] }

/-- A handle is destroyed that is not live. -/
theorem miss (hl : Ledger limit log m) (hdead : ¬(m.entries.lookup h).isSome) :
    Ledger limit (log ++ [.missed h]) (m.destroy h) := by
  rw [Memory.destroy, if_neg hdead]
  have hissued : issuedHandles (log ++ [.missed h]) = issuedHandles log := by simp [issuedHandles, Change.issued?]
  exact {
    limit_eq := hl.limit_eq
    increasing := by rw [hissued]; exact hl.increasing
    issued_lt := by rw [hissued]; exact hl.issued_lt
    next_eq := by rw [hissued]; exact hl.next_eq
    nodup := hl.nodup
    live_le := hl.live_le
    live_eq := by
      rw [hissued, List.countP_append]
      exact hl.live_eq
    invalidDestroys_eq := by
      have hone : List.countP Change.isMissed [.missed h] = 1 := rfl
      rw [List.countP_append, hone, UInt64.ofNat_add, ← hl.invalidDestroys_eq]
      rfl
    released_issued := by
      intro k hk
      rw [hissued]
      exact hl.released_issued k ((List.mem_append.1 hk).resolve_right fun hk => by cases List.mem_singleton.1 hk)
    lookup_iff := fun k w => by simp [hl.lookup_iff] }

theorem destroy (hl : Ledger limit log m) (h : Handle) : Ledger limit (log ++ [m.destruction h]) (m.destroy h) := by
  unfold destruction
  split
  · rename_i hlive
    exact hl.release hlive
  · rename_i hdead
    exact hl.miss hdead

theorem register (hl : Ledger limit log m) (statement : String) (columns : List String) (rows : List (List Stored)) :
    Ledger limit log (m.register statement columns rows) :=
  { hl with }

/-- **What an engine undergoes keeps its ledger.** -/
theorem undergoes (hl : Ledger limit log m) (hcs : Undergoes m cs m') : Ledger limit (log ++ cs) m' := by
  induction hcs generalizing log with
  | refl => rwa [List.append_nil]
  | issued hi _ ih =>
    have hrest := ih (hl.insert hi)
    rwa [List.append_assoc] at hrest
  | destroyed _ ih =>
    have hrest := ih (hl.destroy _)
    rwa [List.append_assoc] at hrest
  | registered s cols rows _ ih => exact ih (hl.register s cols rows)

end Ledger

/-! ## Whole runs -/

theorem get_eq_ok {h : Handle} {v : Stored} {m : Memory} : get h m = .ok v m ↔ m.entries.lookup h = some v := by
  rw [get, inspect_ok, and_iff_left rfl, find?]
  cases m.entries.lookup h <;> simp

theorem get_eq_error {h : Handle} {m : Memory} (hdead : m.entries.lookup h = none) :
    get h m = .error (.invalidHandle h) m := by
  rw [get, inspect_error, find?, hdead]
  exact ⟨rfl, rfl⟩

theorem Ledger.issued {limit : Nat} {log : List Change} {m : Memory} (hl : Ledger limit log m) : m.Issued := by
  intro e he
  have hlookup := Adds.lookup_of_mem_nodup hl.nodup (k := e.1) (v := e.2) he
  exact hl.issued_lt _ (hl.mem_issuedHandles_of_live (by rw [hlookup]; rfl))

theorem entries_of_perform_error {a : Action} {m m' : Memory} {e : Failure} (hm : m.Issued)
    (hr : a.perform m = .error e m') : m'.entries = m.entries := by
  cases a with
  | destroy | register => cases hr
  | get h => rw [(inspect_error.1 (map_error.1 hr)).2]
  | insert v => rw [(insert_error.1 (map_error.1 hr)).2.2]
  | request r => exact (adds_of_call_error hm (map_error.1 hr)).entries_nil

/-! ### Numbers of 64 bits -/

/-- So few handles were issued that the counter of 64 bits has not come back to a number. -/
def Unwrapped (log : List Change) : Prop := (issuedHandles log).length < 2 ^ 64

instance (log : List Change) : Decidable (Unwrapped log) :=
  inferInstanceAs (Decidable ((issuedHandles log).length < 2 ^ 64))

namespace Ledger

variable {limit : Nat} {log : List Change} {m : Memory}

/-- The number of a handle is its serial number. -/
theorem number_eq (hl : Ledger limit log m) (hlog : Unwrapped log) :
    ∀ h ∈ issuedHandles log, h.number.toNat = h.id := by
  intro h hh
  have hlt := hl.issued_lt h hh
  have hnext := hl.next_eq
  unfold Unwrapped at hlog
  have hid : h.id < 2 ^ 64 := by omega
  exact UInt64.toNat_ofNat_of_lt' hid

/-- The numbers of 64 bits increase with the serial numbers. -/
theorem numbers_increasing (hl : Ledger limit log m) (hlog : Unwrapped log) :
    (issuedHandles log).Pairwise fun h k => h.number < k.number := by
  refine hl.increasing.imp_of_mem fun {h k} hh hk hlt => ?_
  rwa [UInt64.lt_iff_toNat_lt, hl.number_eq hlog h hh, hl.number_eq hlog k hk]

theorem invalidDestroys_toNat (hl : Ledger limit log m) (hmissed : log.countP Change.isMissed < 2 ^ 64) :
    m.invalidDestroys.toNat = log.countP Change.isMissed := by
  rw [hl.invalidDestroys_eq]
  exact UInt64.toNat_ofNat_of_lt' hmissed

end Ledger

/-- **The handle table over whole runs**, while fewer than 2⁶⁴ handles are issued.  The history of a run is what the
engine has undergone.  The numbers that were issued increase, so that none is issued twice, and an answer hands out those
that were issued for it; at no moment are more handles live than the limit allows; those that are live were issued and
not released, and still stand for the value that they were issued for; a handle that was released is invalid whatever
comes later; and an action that fails leaves the table as it was. -/
theorem ledger_run (limit : Nat) (actions : List Action) (hissued : Unwrapped (history actions { limit := limit })) :
    let m := run actions { limit := limit }
    let log := history actions { limit := limit }
    Undergoes { limit := limit } log m ∧
    (issuedHandles log).Pairwise (fun h k => h.number < k.number) ∧
    (∀ h ∈ issuedHandles log, h.number.toNat = h.id) ∧
    (∀ (a : Action) hs m', Unwrapped (log ++ a.changes m) → a.perform m = .ok hs m' →
      issuedHandles (a.changes m) = hs) ∧
    (∀ before after, log = before ++ after →
      (issuedHandles before).length ≤ before.countP Change.isReleased + limit) ∧
    m.live ≤ limit ∧
    m.live + log.countP Change.isReleased = (issuedHandles log).length ∧
    (log.countP Change.isMissed < 2 ^ 64 → m.invalidDestroys.toNat = log.countP Change.isMissed) ∧
    (∀ h v, get h m = .ok v m ↔ .issued h v ∈ log ∧ .released h ∉ log) ∧
    (∀ h, .released h ∈ log → ∀ later, Unwrapped (log ++ history later m) →
      get h (run later m) = .error (.invalidHandle h) (run later m)) ∧
    (∀ (a : Action) e m', Unwrapped (log ++ a.changes m) → a.perform m = .error e m' → m'.entries = m.entries) := by
  intro m log
  have hundergoes : Undergoes { limit := limit } log m := undergoes_history actions _
  have hledger : Ledger limit log m := (Ledger.empty limit).undergoes hundergoes
  refine ⟨hundergoes, hledger.numbers_increasing hissued, hledger.number_eq hissued,
    fun a hs m' _ => issuedHandles_changes, fun before after hlog => ?_, hledger.live_le, hledger.live_eq,
    hledger.invalidDestroys_toNat, fun h v => get_eq_ok.trans (hledger.lookup_iff h v), fun h hh later _ => ?_,
    fun a e m' _ => entries_of_perform_error hledger.issued⟩
  · rw [hlog] at hundergoes
    obtain ⟨m₁, hbefore, -⟩ := hundergoes.split
    have hmoment : Ledger limit before m₁ := (Ledger.empty limit).undergoes hbefore
    have hlive := hmoment.live_eq
    have hle := hmoment.live_le
    omega
  · have hlater : Ledger limit (log ++ history later m) (run later m) :=
      hledger.undergoes (undergoes_history later m)
    refine get_eq_error (Option.eq_none_iff_forall_ne_some.2 fun v hv => ?_)
    exact ((hlater.lookup_iff h v).1 hv).2 (List.mem_append_left _ hh)

/-- Two values under one handle each, a statement of which the second row does not fit, and a handle destroyed twice. -/
def crowdedRun : List Action :=
  [.insert (.payload (.bool true)), .register "rows" ["a"] [[.payload (.bool true)], [.payload (.bool false)]],
    .request (.execute "rows" []), .destroy ⟨1⟩, .destroy ⟨1⟩, .request (.createNull .any)]

/-- The first row of the statement is issued and released again, and its number is not used for the value after it. -/
theorem ledger_run_crowded : Unwrapped (history crowdedRun { limit := 2 }) ∧
    history crowdedRun { limit := 2 } = [.issued ⟨1⟩ (.payload (.bool true)), .issued ⟨2⟩ (.payload (.bool true)),
      .released ⟨2⟩, .released ⟨1⟩, .missed ⟨1⟩, .issued ⟨3⟩ (.null .any)] ∧
    (run crowdedRun { limit := 2 }).live + 2 = 3 ∧ (run crowdedRun { limit := 2 }).invalidDestroys.toNat = 1 := by
  have hhistory : history crowdedRun { limit := 2 } = [.issued ⟨1⟩ (.payload (.bool true)),
      .issued ⟨2⟩ (.payload (.bool true)), .released ⟨2⟩, .released ⟨1⟩, .missed ⟨1⟩, .issued ⟨3⟩ (.null .any)] := by
    rfl
  have hunwrapped : Unwrapped (history crowdedRun { limit := 2 }) := by
    rw [hhistory]
    decide
  obtain ⟨-, -, -, -, -, -, hlive, hinvalid, -⟩ := ledger_run 2 crowdedRun hunwrapped
  rw [hhistory] at hlive hinvalid
  exact ⟨hunwrapped, hhistory, hlive, hinvalid (by decide)⟩

end Memory
end ValueBridge
