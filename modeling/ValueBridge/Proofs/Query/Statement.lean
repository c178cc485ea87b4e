import ValueBridge.Engine.Memory
import Mathlib.Data.List.DropRight
/-!
# Reading echo statements

`Echoes statement names` says how an echo is written: the keyword, and each name after its `$`, with commas between them
and blanks around all of them.  Whatever the blanks, the names are read back (`echoNames?_of_echoes`), if they hold no
commas and neither begin nor end with a blank.  A statement is taken for an echo exactly if it is written as one for some
names without commas (`echoNames?_isSome_iff`).
-/
namespace ValueBridge

variable {before after cs text : List Char} {c sep : Char} {name statement : String} {names : List String}

/-- Nothing but blanks. -/
abbrev Blank (cs : List Char) : Prop := ∀ b ∈ cs, isBlank b

/-! ## Trimming -/

theorem rdropWhile_of_trimList (h : trimList cs = cs) : cs.rdropWhile isBlank = cs := by
  have hidempotent : (trimList cs).rdropWhile isBlank = trimList cs := List.rdropWhile_idempotent _ _
  rwa [h] at hidempotent

/-- Text ends where its last part ends. -/
theorem rdropWhile_append (hne : cs ≠ []) (h : cs.rdropWhile isBlank = cs) (front : List Char) :
    (front ++ cs).rdropWhile isBlank = front ++ cs := by
  rw [List.rdropWhile_eq_self_iff] at h ⊢
  intro hl
  rw [List.getLast_append_right hne]
  exact h hne

theorem trimList_padded (hbefore : Blank before) (hafter : Blank after)
    (hfirst : isBlank c = false) (hlast : (c :: cs).rdropWhile isBlank = c :: cs) :
    trimList (before ++ c :: cs ++ after) = c :: cs := by
  have hfront : (before ++ c :: cs ++ after).dropWhile isBlank = c :: cs ++ after := by
    rw [List.append_assoc, List.dropWhile_append_of_pos hbefore, List.cons_append,
      List.dropWhile_cons_of_neg (by rw [hfirst]; exact Bool.false_ne_true)]
  have hback : (c :: cs ++ after).rdropWhile isBlank = (c :: cs).rdropWhile isBlank := by
    unfold List.rdropWhile
    rw [List.reverse_append, List.dropWhile_append_of_pos fun b hb => hafter b (List.mem_reverse.1 hb)]
  calc
    trimList (before ++ c :: cs ++ after) = (c :: cs ++ after).rdropWhile isBlank := by
      rw [trimList, hfront, List.rdropWhile]
    _ = c :: cs := hback.trans hlast

/-- Around what is left of a text when it is trimmed stand the blanks that were there. -/
theorem exists_padding (cs : List Char) : ∃ before after, Blank before ∧ Blank after ∧
    cs = before ++ trimList cs ++ after := by
  refine ⟨cs.takeWhile isBlank, (cs.dropWhile isBlank).rtakeWhile isBlank, fun b hb => List.mem_takeWhile_imp hb,
    fun b hb => List.mem_rtakeWhile_imp hb, ?_⟩
  have hback : trimList cs ++ (cs.dropWhile isBlank).rtakeWhile isBlank = cs.dropWhile isBlank :=
    List.rdropWhile_append_rtakeWhile ..
  rw [List.append_assoc, hback, List.takeWhile_append_dropWhile]

/-- A text that begins with a character when it is trimmed has nothing but blanks before it. -/
theorem exists_of_head?_trimList (h : (trimList cs).head? = some c) :
    ∃ before rest, Blank before ∧ cs = before ++ c :: rest := by
  obtain ⟨before, after, hbefore, -, hcs⟩ := exists_padding cs
  obtain ⟨rest, hrest⟩ := List.head?_eq_some_iff.1 h
  rw [hrest, List.append_assoc, List.cons_append] at hcs
  exact ⟨before, rest ++ after, hbefore, hcs⟩

/-! ## Splitting -/

theorem splitList_of_not_mem : ∀ {cs : List Char}, sep ∉ cs → splitList sep cs = [cs]
  | [], _ => rfl
  | c :: cs, h => by
    rw [List.mem_cons, not_or] at h
    rw [splitList, if_neg (Ne.symm h.1), splitList_of_not_mem h.2]

theorem splitList_append_cons : ∀ {cs : List Char}, sep ∉ cs → ∀ rest : List Char,
    splitList sep (cs ++ sep :: rest) = cs :: splitList sep rest
  | [], _, rest => by rw [List.nil_append, splitList, if_pos rfl]
  | c :: cs, h, rest => by
    rw [List.mem_cons, not_or] at h
    rw [List.cons_append, splitList, if_neg (Ne.symm h.1), splitList_append_cons h.2]

/-! ## Statements -/

/-- The text asks for the names: each follows its `$`, with commas between them and blanks around them. -/
inductive AsksFor : List Char → List String → Prop
  | one {before after : List Char} {name : String} : Blank before → Blank after →
    AsksFor (before ++ '$' :: name.toList ++ after) [name]
  | cons {before after text : List Char} {name : String} {names : List String} : Blank before → Blank after →
    AsksFor text names → AsksFor (before ++ '$' :: name.toList ++ after ++ ',' :: text) (name :: names)

/-- The statement is an echo that asks for the names, with any blanks at its ends. -/
def Echoes (statement : String) (names : List String) : Prop :=
  ∃ before text, Blank before ∧ AsksFor text names ∧ statement.toList = before ++ Memory.echoKeyword ++ text

/-- A name that a statement can ask for. -/
structure IsPlain (name : String) : Prop where
  noComma : ',' ∉ name.toList
  trimmed_eq : trimmed name = name

/-- A name that is read back as it is written: it may begin with a blank, but not end with one. -/
structure IsTight (name : String) : Prop where
  noComma : ',' ∉ name.toList
  rdropWhile : ('$' :: name.toList).rdropWhile isBlank = '$' :: name.toList

theorem rdropWhile_dollar (h : cs.rdropWhile isBlank = cs) : ('$' :: cs).rdropWhile isBlank = '$' :: cs := by
  by_cases hne : cs = []
  · rw [hne]
    rfl
  · exact rdropWhile_append hne h ['$']

theorem IsPlain.isTight (h : IsPlain name) : IsTight name := by
  have htrim : trimList name.toList = name.toList := by
    have htoList := congrArg String.toList h.trimmed_eq
    rwa [trimmed, String.toList_ofList] at htoList
  exact ⟨h.noComma, rdropWhile_dollar (rdropWhile_of_trimList htrim)⟩

/-- The blanks at the end of a name can be taken for blanks after it. -/
theorem exists_tight (h : ',' ∉ name.toList) : ∃ tight after, IsTight tight ∧ Blank after ∧
    name.toList = tight.toList ++ after := by
  refine ⟨String.ofList (name.toList.rdropWhile isBlank), name.toList.rtakeWhile isBlank, ⟨?_, ?_⟩,
    fun b hb => List.mem_rtakeWhile_imp hb, ?_⟩
  · rw [String.toList_ofList]
    exact fun hmem => h ((List.rdropWhile_prefix _ _).subset hmem)
  · rw [String.toList_ofList]
    exact rdropWhile_dollar (List.rdropWhile_idempotent _ _)
  · rw [String.toList_ofList, List.rdropWhile_append_rtakeWhile]

/-- With its `$` and the blanks around it, a name has no comma, and is what is left when it is trimmed. -/
theorem IsTight.piece (h : IsTight name) (hbefore : Blank before) (hafter : Blank after) :
    ',' ∉ before ++ '$' :: name.toList ++ after ∧
      trimList (before ++ '$' :: name.toList ++ after) = '$' :: name.toList := by
  have hcomma : ∀ {blanks : List Char}, Blank blanks → ',' ∉ blanks := fun hblanks hmem =>
    absurd (hblanks ',' hmem) (by decide)
  refine ⟨fun hmem => ?_, trimList_padded hbefore hafter rfl h.rdropWhile⟩
  rcases List.mem_append.1 hmem with hmem | hmem
  · rcases List.mem_append.1 hmem with hmem | hmem
    · exact hcomma hbefore hmem
    · rcases List.mem_cons.1 hmem with hdollar | hmem
      · exact absurd hdollar (by decide)
      · exact h.noComma hmem
  · exact hcomma hafter hmem

/-- What is asked for can be read off the pieces between the commas, also when the blanks at the end are missing. -/
theorem AsksFor.pieces (h : AsksFor text names) (hnames : ∀ name ∈ names, IsTight name) : ∃ body after,
    text = body ++ after ∧ Blank after ∧ body ≠ [] ∧ body.rdropWhile isBlank = body ∧
      (splitList ',' body).map trimList = names.map fun name => '$' :: name.toList := by
  induction h with
  | @one before after name hbefore hafter =>
    have hname := hnames name List.mem_cons_self
    obtain ⟨hcomma, htrim⟩ := hname.piece hbefore (show Blank [] from fun b hb => by cases hb)
    rw [List.append_nil] at hcomma htrim
    refine ⟨before ++ '$' :: name.toList, after, rfl, hafter, by simp,
      rdropWhile_append (List.cons_ne_nil _ _) hname.rdropWhile before, ?_⟩
    rw [splitList_of_not_mem hcomma, List.map_singleton, htrim]
    rfl
  | @cons before after text name names hbefore hafter _ ih =>
    obtain ⟨hname, hnames⟩ := List.forall_mem_cons.1 hnames
    obtain ⟨body, blanks, rfl, hblanks, hne, hlast, hpieces⟩ := ih hnames
    obtain ⟨hcomma, htrim⟩ := hname.piece hbefore hafter
    have hlast' : (',' :: body).rdropWhile isBlank = ',' :: body := rdropWhile_append hne hlast [',']
    refine ⟨before ++ '$' :: name.toList ++ after ++ ',' :: body, blanks, by simp, hblanks, by simp,
      rdropWhile_append (List.cons_ne_nil _ _) hlast' _, ?_⟩
    rw [splitList_append_cons hcomma, List.map_cons, htrim, hpieces]
    rfl

theorem echoNames?_of_tight (h : Echoes statement names) (hnames : ∀ name ∈ names, IsTight name) :
    Memory.echoNames? statement = some (names.map fun name => '$' :: name.toList) := by
  obtain ⟨before, text, hbefore, hasks, hstatement⟩ := h
  obtain ⟨body, after, rfl, hafter, hne, hlast, hpieces⟩ := hasks.pieces hnames
  have htrim : trimList statement.toList = Memory.echoKeyword ++ body := by
    rw [hstatement, ← List.append_assoc, List.append_assoc before]
    exact trimList_padded (c := 'R') hbefore hafter rfl (rdropWhile_append hne hlast Memory.echoKeyword)
  have hprefix : Memory.echoKeyword.isPrefixOf (Memory.echoKeyword ++ body) :=
    List.isPrefixOf_iff_prefix.2 (List.prefix_append _ _)
  rw [Memory.echoNames?, htrim]
  dsimp only
  rw [if_pos hprefix, List.drop_left, hpieces, if_pos]
  rw [List.all_map, List.all_eq_true]
  exact fun _ _ => rfl

/-- **The names that an echo asks for are read back**, each with its `$`. -/
theorem echoNames?_of_echoes (h : Echoes statement names) (hnames : ∀ name ∈ names, IsPlain name) :
    Memory.echoNames? statement = some (names.map fun name => '$' :: name.toList) :=
  echoNames?_of_tight h fun name hname => (hnames name hname).isTight

/-! ## Which statements are echoes -/

/-- The statement is an echo for some names, which may hold anything but commas. -/
def IsEcho (statement : String) : Prop :=
  ∃ names, (∀ name ∈ names, ',' ∉ name.toList) ∧ Echoes statement names

theorem AsksFor.exists_tight (h : AsksFor text names) (hnames : ∀ name ∈ names, ',' ∉ name.toList) :
    ∃ tights, AsksFor text tights ∧ ∀ name ∈ tights, IsTight name := by
  induction h with
  | @one before after name hbefore hafter =>
    obtain ⟨tight, blanks, htight, hblanks, hname⟩ := ValueBridge.exists_tight (hnames name List.mem_cons_self)
    refine ⟨[tight], ?_, List.forall_mem_singleton.2 htight⟩
    rw [hname, ← List.cons_append, List.append_assoc, List.append_assoc, ← List.append_assoc]
    exact .one hbefore (List.forall_mem_append.2 ⟨hblanks, hafter⟩)
  | @cons before after text name names hbefore hafter _ ih =>
    obtain ⟨hname, hnames⟩ := List.forall_mem_cons.1 hnames
    obtain ⟨tights, hasks, htights⟩ := ih hnames
    obtain ⟨tight, blanks, htight, hblanks, hname⟩ := ValueBridge.exists_tight hname
    have hall : AsksFor (before ++ '$' :: tight.toList ++ (blanks ++ after) ++ ',' :: text) (tight :: tights) :=
      .cons hbefore (List.forall_mem_append.2 ⟨hblanks, hafter⟩) hasks
    refine ⟨tight :: tights, ?_, List.forall_mem_cons.2 ⟨htight, htights⟩⟩
    rw [hname]
    simpa using hall

/-- Blanks at the end come after the last name. -/
theorem AsksFor.append_blank (h : AsksFor text names) (hafter : Blank after) : AsksFor (text ++ after) names := by
  induction h with
  | @one before after' name hbefore hafter' =>
    rw [List.append_assoc]
    exact .one hbefore (List.forall_mem_append.2 ⟨hafter', hafter⟩)
  | @cons before after' text name names hbefore hafter' _ ih =>
    rw [List.append_assoc, List.cons_append]
    exact .cons hbefore hafter' ih

/-- A piece without a comma that begins with `$` when it is trimmed asks for the name after the `$`. -/
theorem exists_name_of_piece (hcomma : ',' ∉ cs) (h : (trimList cs).head? = some '$') :
    ∃ (before : List Char) (name : String), Blank before ∧ cs = before ++ '$' :: name.toList ++ [] ∧
      ',' ∉ name.toList := by
  obtain ⟨before, rest, hbefore, rfl⟩ := exists_of_head?_trimList h
  refine ⟨before, String.ofList rest, hbefore, by rw [String.toList_ofList, List.append_nil], ?_⟩
  rw [String.toList_ofList]
  exact fun hmem => hcomma (List.mem_append_right _ (List.mem_cons_of_mem _ hmem))

/-- **A text asks for names if each of its pieces does.** -/
theorem exists_asksFor (h : ∀ piece ∈ splitList ',' cs, (trimList piece).head? = some '$') :
    ∃ names, AsksFor cs names ∧ ∀ name ∈ names, ',' ∉ name.toList := by
  have hnone : Blank [] := List.all_eq_true.1 rfl
  induction hn : cs.length using Nat.strongRecOn generalizing cs with
  | ind n ih =>
    by_cases hmem : ',' ∈ cs
    · obtain ⟨piece, rest, rfl, hcomma⟩ := List.eq_append_cons_of_mem hmem
      rw [splitList_append_cons hcomma] at h
      obtain ⟨hpiece, hrest⟩ := List.forall_mem_cons.1 h
      obtain ⟨before, name, hbefore, rfl, hname⟩ := exists_name_of_piece hcomma hpiece
      rw [List.length_append, List.length_cons] at hn
      obtain ⟨names, hasks, hnames⟩ := ih rest.length (by omega) hrest rfl
      exact ⟨name :: names, .cons hbefore hnone hasks, List.forall_mem_cons.2 ⟨hname, hnames⟩⟩
    · rw [splitList_of_not_mem hmem] at h
      obtain ⟨before, name, hbefore, rfl, hname⟩ := exists_name_of_piece hmem (h cs List.mem_cons_self)
      exact ⟨[name], .one hbefore hnone, List.forall_mem_singleton.2 hname⟩

theorem isEcho_of_echoNames? (h : (Memory.echoNames? statement).isSome) : IsEcho statement := by
  unfold Memory.echoNames? at h
  dsimp only at h
  split at h
  · rename_i hkeyword
    split at h
    · rename_i hdollars
      obtain ⟨body, hbody⟩ := List.isPrefixOf_iff_prefix.1 hkeyword
      obtain ⟨before, after, hbefore, hafter, hstatement⟩ := exists_padding statement.toList
      rw [← hbody, List.drop_left, List.all_map, List.all_eq_true] at hdollars
      obtain ⟨names, hasks, hnames⟩ := exists_asksFor fun piece hpiece => eq_of_beq (hdollars piece hpiece)
      rw [← hbody, List.append_assoc, List.append_assoc, ← List.append_assoc before] at hstatement
      exact ⟨names, hnames, before, body ++ after, hbefore, hasks.append_blank hafter, hstatement⟩
    · cases h
  · cases h

/-- **What is taken for an echo is written as one**, and the other way round. -/
theorem echoNames?_isSome_iff : (Memory.echoNames? statement).isSome ↔ IsEcho statement := by
  refine ⟨isEcho_of_echoNames?, fun ⟨names, hnames, before, text, hbefore, hasks, hstatement⟩ => ?_⟩
  obtain ⟨tights, hasks, htights⟩ := hasks.exists_tight hnames
  rw [echoNames?_of_tight ⟨before, text, hbefore, hasks, hstatement⟩ htights]
  rfl

theorem echoNames?_eq_none_iff : Memory.echoNames? statement = none ↔ ¬IsEcho statement := by
  rw [← echoNames?_isSome_iff, Option.not_isSome_iff_eq_none]

theorem trimList_eq_of_trimmed {other : String} (h : trimmed other = trimmed statement) :
    trimList other.toList = trimList statement.toList := by
  have htoList := congrArg String.toList h
  rwa [trimmed, trimmed, String.toList_ofList, String.toList_ofList] at htoList

/-- The blanks around a statement do not decide whether it is an echo. -/
theorem echoNames?_congr {other : String} (h : trimmed other = trimmed statement) :
    Memory.echoNames? other = Memory.echoNames? statement := by
  rw [Memory.echoNames?, Memory.echoNames?, trimList_eq_of_trimmed h]

/-- What stands in a text that asks for names. -/
theorem AsksFor.of_mem (h : AsksFor text names) (hc : c ∈ text) :
    isBlank c ∨ c = '$' ∨ c = ',' ∨ ∃ name ∈ names, c ∈ name.toList := by
  induction h with
  | @one before after name hbefore hafter =>
    simp only [List.mem_append, List.mem_cons] at hc
    obtain (hc | rfl | hc) | hc := hc
    · exact .inl (hbefore c hc)
    · exact .inr (.inl rfl)
    · exact .inr (.inr (.inr ⟨name, List.mem_cons_self, hc⟩))
    · exact .inl (hafter c hc)
  | @cons before after text name names hbefore hafter _ ih =>
    simp only [List.mem_append, List.mem_cons] at hc
    obtain ((hc | rfl | hc) | hc) | rfl | hc := hc
    · exact .inl (hbefore c hc)
    · exact .inr (.inl rfl)
    · exact .inr (.inr (.inr ⟨name, List.mem_cons_self, hc⟩))
    · exact .inl (hafter c hc)
    · exact .inr (.inr (.inl rfl))
    · obtain hblank | hdollar | hcomma | ⟨other, hother, hc⟩ := ih hc
      · exact .inl hblank
      · exact .inr (.inl hdollar)
      · exact .inr (.inr (.inl hcomma))
      · exact .inr (.inr (.inr ⟨other, List.mem_cons_of_mem _ hother, hc⟩))

end ValueBridge
