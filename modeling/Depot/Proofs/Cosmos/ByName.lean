/-
Items merged by name. A list of items stands for a table: an item that
comes in is merged into the one of its name, or put at the end if there is
none (`mergeInto_ok`). Nothing else in the table changes, so the names of
a table that was filled this way are the names that came in, each once and
in the order of their first occurrence (`names_mergeAll`).

What an item of the table is made of are the items of its name that came in,
in their order (`forall_mergeAll_sameName`). A table that is merged into
nothing gives itself back, so merging goes on from a table as from the items
that it was made of (`mergeAll_again`).

What a table has under a name is told by a property (`Under`): there is an
item of the name, and every item of the name has the property. A table
keeps it if merging does (`Under.mergeAll`), and has it of an item that
came in if merging an item gives it (`under_mergeAll`).
-/
import Depot.Provider.Cosmos
import Depot.Proofs.Table
import Depot.Proofs.Work

namespace Depot.Cosmos

variable {α : Type} {name : α → String} {merge : α → α → Except Fault α}

/-- Merging two items of one name gives an item of that name. -/
def KeepsName (name : α → String) (merge : α → α → Except Fault α) : Prop :=
  ∀ old new m, name old = name new → merge old new = .ok m → name m = name new

/-- All items of a list merged into a table, one after the other. -/
def mergeAll (name : α → String) (merge : α → α → Except Fault α) (items table : List α) :
    Except Fault (List α) :=
  items.foldlM (fun acc x => mergeInto name merge x acc) table

-- ============================================================ one item

/-- An item is put at the end, or merged into the first one of its name. -/
theorem mergeInto_ok {new : α} {table result : List α}
    (h : mergeInto name merge new table = .ok result) :
    (name new ∉ table.map name ∧ result = table ++ [new])
    ∨ ∃ before old after m, table = before ++ old :: after ∧ name old = name new
      ∧ merge old new = .ok m ∧ result = before ++ m :: after := by
  induction table generalizing result with
  | nil =>
      cases h
      exact .inl ⟨by simp, rfl⟩
  | cons x table ih =>
      rw [mergeInto] at h
      by_cases hname : name x = name new
      · rw [if_pos hname] at h
        obtain ⟨m, hm, h⟩ := bind_eq_ok.1 h
        cases h
        exact .inr ⟨[], x, table, m, rfl, hname, hm, rfl⟩
      · rw [if_neg hname] at h
        obtain ⟨rest, hrest, h⟩ := bind_eq_ok.1 h
        cases h
        rcases ih hrest with ⟨hnew, rfl⟩ | ⟨before, old, after, m, rfl, hold, hm, rfl⟩
        · exact .inl ⟨List.not_mem_cons_of_ne_of_not_mem (Ne.symm hname) hnew, rfl⟩
        · exact .inr ⟨x :: before, old, after, m, rfl, hold, hm, rfl⟩

/-- An item that cannot be put into a table cannot be merged into the one of
its name. -/
theorem mergeInto_error {new : α} {table : List α} {fault : Fault}
    (h : mergeInto name merge new table = .error fault) :
    ∃ old ∈ table, name old = name new ∧ merge old new = .error fault := by
  induction table with
  | nil => cases h
  | cons x table ih =>
      rw [mergeInto] at h
      by_cases hname : name x = name new
      · rw [if_pos hname] at h
        rcases bind_eq_error.1 h with hm | ⟨m, -, h⟩
        · exact ⟨x, List.mem_cons_self, hname, hm⟩
        · cases h
      · rw [if_neg hname] at h
        rcases bind_eq_error.1 h with hrest | ⟨rest, -, h⟩
        · obtain ⟨old, hold, hboth⟩ := ih hrest
          exact ⟨old, List.mem_cons_of_mem x hold, hboth⟩
        · cases h

/-- An item under a new name goes to the end. -/
theorem mergeInto_of_notMem {new : α} {table : List α} (hnew : name new ∉ table.map name) :
    mergeInto name merge new table = .ok (table ++ [new]) := by
  induction table with
  | nil => rfl
  | cons x table ih =>
      rw [List.map_cons, List.mem_cons, not_or] at hnew
      rw [mergeInto, if_neg (Ne.symm hnew.1), ih hnew.2]
      rfl

/-- Names stay in place when an item is merged in; a new one is the last. -/
theorem names_mergeInto (hkeeps : KeepsName name merge) {new : α} {table result : List α}
    (h : mergeInto name merge new table = .ok result) :
    result.map name
      = if name new ∈ table.map name then table.map name else table.map name ++ [name new] := by
  rcases mergeInto_ok h with ⟨hnew, rfl⟩ | ⟨before, old, after, m, rfl, hname, hm, rfl⟩
  · rw [if_neg hnew, List.map_append]
    rfl
  · have hin : name new ∈ (before ++ old :: after).map name := by
      rw [← hname]
      exact List.mem_map_of_mem (by simp)
    rw [if_pos hin, List.map_append, List.map_append, List.map_cons, List.map_cons,
      hkeeps old new m hname hm, hname]

/-- Names stay distinct when an item is merged in. -/
theorem nodup_mergeInto (hkeeps : KeepsName name merge) {new : α} {table result : List α}
    (hnodup : (table.map name).Nodup) (h : mergeInto name merge new table = .ok result) :
    (result.map name).Nodup := by
  rw [names_mergeInto hkeeps h]
  by_cases hname : name new ∈ table.map name
  · rw [if_pos hname]
    exact hnodup
  · rw [if_neg hname]
    exact List.nodup_append_comm.1 (List.nodup_cons.2 ⟨hname, hnodup⟩)

-- =========================================================== all items

/-- The names of a table are those that it had and those that came in, each
once. -/
theorem names_mergeAll (hkeeps : KeepsName name merge) {items table result : List α}
    (hnodup : (table.map name).Nodup) (h : mergeAll name merge items table = .ok result) :
    result.map name = (table.map name ++ items.map name).eraseDups := by
  induction items generalizing table with
  | nil =>
      cases h
      rw [List.map_nil, List.append_nil, eraseDups_of_nodup hnodup]
  | cons x items ih =>
      obtain ⟨mid, hmid, h⟩ := bind_eq_ok.1 h
      rw [ih (nodup_mergeInto hkeeps hnodup hmid) h, names_mergeInto hkeeps hmid, List.map_cons]
      by_cases hname : name x ∈ table.map name
      · rw [if_pos hname, eraseDups_append_cons_of_mem hname]
      · rw [if_neg hname, List.append_assoc]
        rfl

/-- Names stay distinct when many items are merged in. -/
theorem nodup_mergeAll (hkeeps : KeepsName name merge) {items table result : List α}
    (hnodup : (table.map name).Nodup) (h : mergeAll name merge items table = .ok result) :
    (result.map name).Nodup := by
  rw [names_mergeAll hkeeps hnodup h]
  exact nodup_eraseDups _

/-- A run over all items is a run over some of them and then the others. -/
theorem mergeAll_append {items more table result : List α} :
    mergeAll name merge (items ++ more) table = .ok result
      ↔ ∃ mid, mergeAll name merge items table = .ok mid
        ∧ mergeAll name merge more mid = .ok result := by
  unfold mergeAll
  rw [List.foldlM_append]
  exact bind_eq_ok

/-- Items of different names, none of them the name of one that is there, are
put at the end as they are. -/
theorem mergeAll_of_nodup {items table : List α} (h : ((table ++ items).map name).Nodup) :
    mergeAll name merge items table = .ok (table ++ items) := by
  induction items generalizing table with
  | nil => exact congrArg Except.ok (List.append_nil table).symm
  | cons x items ih =>
      have hnew : name x ∉ table.map name := by
        rw [List.map_append, List.map_cons] at h
        intro hin
        exact List.disjoint_of_nodup_append h hin List.mem_cons_self
      have hmid : mergeInto name merge x table = .ok (table ++ [x]) := mergeInto_of_notMem hnew
      rw [List.append_cons] at h ⊢
      exact bind_eq_ok.2 ⟨table ++ [x], hmid, ih h⟩

/-- A table stands for the items that made it: further items find the same
either way. -/
theorem mergeAll_again (hkeeps : KeepsName name merge) {items table : List α}
    (h : mergeAll name merge items [] = .ok table) (more : List α) :
    mergeAll name merge (items ++ more) [] = mergeAll name merge (table ++ more) [] := by
  have hnodup : (table.map name).Nodup := nodup_mergeAll hkeeps (by simp) h
  have hagain : mergeAll name merge table [] = .ok table := mergeAll_of_nodup hnodup
  have hsplit : ∀ first : List α, mergeAll name merge first [] = .ok table →
      mergeAll name merge (first ++ more) [] = mergeAll name merge more table := by
    intro first hfirst
    show (first ++ more).foldlM _ _ = _
    rw [List.foldlM_append]
    exact congrArg (· >>= fun mid => mergeAll name merge more mid) hfirst
  rw [hsplit items h, hsplit table hagain]

/-- A run that fails does so at an item that came in. -/
theorem mergeAll_error {items table : List α} {fault : Fault}
    (h : mergeAll name merge items table = .error fault) :
    ∃ before new after mid, items = before ++ new :: after
      ∧ mergeAll name merge before table = .ok mid
      ∧ ∃ old ∈ mid, name old = name new ∧ merge old new = .error fault := by
  induction items generalizing table with
  | nil => cases h
  | cons x items ih =>
      rcases bind_eq_error.1 h with hfails | ⟨mid, hmid, h⟩
      · exact ⟨[], x, items, table, rfl, rfl, mergeInto_error hfails⟩
      · obtain ⟨before, new, after, mid', rfl, hbefore, hfails⟩ := ih h
        exact ⟨x :: before, new, after, mid', rfl, bind_eq_ok.2 ⟨mid, hmid, hbefore⟩, hfails⟩

/-- What holds of all items of a table and of those that come in holds of all
items that come out, if merging keeps it. -/
theorem forall_mergeAll {R : α → Prop} {items table result : List α}
    (htable : ∀ x ∈ table, R x) (hitems : ∀ x ∈ items, R x)
    (hmerge : ∀ old new m, R old → R new → name old = name new → merge old new = .ok m → R m)
    (h : mergeAll name merge items table = .ok result) : ∀ x ∈ result, R x := by
  induction items generalizing table with
  | nil =>
      cases h
      exact htable
  | cons x items ih =>
      obtain ⟨mid, hmid, h⟩ := bind_eq_ok.1 h
      obtain ⟨hx, hitems⟩ := List.forall_mem_cons.1 hitems
      refine ih ?_ hitems h
      rcases mergeInto_ok hmid with ⟨-, rfl⟩ | ⟨before, old, after, m, rfl, hname, hm, rfl⟩
      · exact List.forall_mem_append.2 ⟨htable, by simpa using hx⟩
      · obtain ⟨hbefore, hafter⟩ := List.forall_mem_append.1 htable
        obtain ⟨hold, hafter⟩ := List.forall_mem_cons.1 hafter
        exact List.forall_mem_append.2 ⟨hbefore,
          List.forall_mem_cons.2 ⟨hmerge old x m hold hx hname hm, hafter⟩⟩

-- ===================================================== items of a name

/-- The items of some name, in order. -/
def sameName (name : α → String) (items : List α) (key : String) : List α :=
  items.filter fun x => name x = key

theorem mem_sameName {items : List α} {key : String} {x : α} :
    x ∈ sameName name items key ↔ x ∈ items ∧ name x = key := by
  simp [sameName]

theorem sameName_concat_self (items : List α) (x : α) :
    sameName name (items ++ [x]) (name x) = sameName name items (name x) ++ [x] := by
  simp [sameName]

theorem sameName_concat_of_ne (items : List α) {x : α} {key : String} (h : name x ≠ key) :
    sameName name (items ++ [x]) key = sameName name items key := by
  simp [sameName, h]

/-- An item of a table after another one came in was there under another
name, or is the one that came in, or is what that one was merged into. -/
theorem mem_mergeInto {new : α} {table result : List α} (hnodup : (table.map name).Nodup)
    (h : mergeInto name merge new table = .ok result) {x : α} (hx : x ∈ result) :
    (x ∈ table ∧ name new ≠ name x) ∨ (x = new ∧ name new ∉ table.map name)
      ∨ ∃ old ∈ table, name old = name new ∧ merge old new = .ok x := by
  rcases mergeInto_ok h with ⟨hnew, rfl⟩ | ⟨before, old, after, m, rfl, hname, hm, rfl⟩
  · rcases List.mem_append.1 hx with hx | hx
    · refine .inl ⟨hx, fun hsame => hnew ?_⟩
      rw [hsame]
      exact List.mem_map_of_mem hx
    · exact .inr (.inl ⟨List.mem_singleton.1 hx, hnew⟩)
  · have hapart : ∀ y ∈ before ++ after, name new ≠ name y := by
      intro y hy hsame
      have hperm : (before ++ old :: after).Perm (old :: (before ++ after)) := List.perm_middle
      have hcons := (hperm.map name).nodup_iff.1 hnodup
      rw [List.map_cons, List.nodup_cons, hname, hsame] at hcons
      exact hcons.1 (List.mem_map_of_mem hy)
    rcases List.mem_append.1 hx with hbefore | hafter
    · exact .inl ⟨by simp [hbefore], hapart x (by simp [hbefore])⟩
    · rcases List.mem_cons.1 hafter with rfl | hafter
      · exact .inr (.inr ⟨old, by simp, hname, hm⟩)
      · exact .inl ⟨by simp [hafter], hapart x (by simp [hafter])⟩

/-- An item of a table is what the items of its name come to: the first one
comes to itself, and each further one is merged into what there is. -/
theorem forall_mergeAll_sameName {R : List α → α → Prop} (hkeeps : KeepsName name merge)
    (hfirst : ∀ x, R [x] x)
    (hmerge : ∀ asked old new m, R asked old → merge old new = .ok m → R (asked ++ [new]) m)
    {items result : List α} (h : mergeAll name merge items [] = .ok result) :
    ∀ x ∈ result, R (sameName name items (name x)) x := by
  -- the last item came into a table of the items before it
  induction items using List.reverseRecOn generalizing result with
  | nil =>
      cases h
      simp
  | append_singleton items new ih =>
      obtain ⟨mid, hmid, h⟩ := mergeAll_append.1 h
      obtain ⟨last, hlast, h⟩ := bind_eq_ok.1 h
      cases h
      have hnames : mid.map name = (items.map name).eraseDups :=
        names_mergeAll hkeeps (by simp) hmid
      have hnodup : (mid.map name).Nodup := nodup_mergeAll hkeeps (by simp) hmid
      intro x hx
      rcases mem_mergeInto hnodup hlast hx with ⟨hmem, hne⟩ | ⟨rfl, hnew⟩ | ⟨old, hold, hname, hm⟩
      · rw [sameName_concat_of_ne items hne]
        exact ih hmid x hmem
      · have hnone : sameName name items (name x) = [] := by
          refine List.filter_eq_nil_iff.2 fun y hy hsame => hnew ?_
          rw [hnames, List.mem_eraseDups, ← of_decide_eq_true hsame]
          exact List.mem_map_of_mem hy
        rw [sameName_concat_self, hnone]
        exact hfirst x
      · have hasked := ih hmid old hold
        rw [hname] at hasked
        rw [hkeeps old new x hname hm, sameName_concat_self]
        exact hmerge _ old new x hasked hm

-- ======================================================== under a name

/-- A table has an item of some name, and every item of that name has a
property. -/
structure Under (name : α → String) (table : List α) (key : String) (Q : α → Prop) : Prop where
  there : ∃ x ∈ table, name x = key
  all : ∀ x ∈ table, name x = key → Q x

instance (name : α → String) (table : List α) (key : String) (Q : α → Prop) [DecidablePred Q] :
    Decidable (Under name table key Q) :=
  decidable_of_iff ((∃ x ∈ table, name x = key) ∧ ∀ x ∈ table, name x = key → Q x)
    ⟨fun h => ⟨h.1, h.2⟩, fun h => ⟨h.there, h.all⟩⟩

namespace Under

variable {table result : List α} {key : String} {Q : α → Prop}

theorem exists_mem (h : Under name table key Q) : ∃ x ∈ table, name x = key ∧ Q x := by
  obtain ⟨x, hx, hname⟩ := h.there
  exact ⟨x, hx, hname, h.all x hx hname⟩

/-- Merging in one more item keeps what holds under a name, if merging does. -/
theorem mergeInto {new : α} (h : Under name table key Q) (hkeeps : KeepsName name merge)
    (hmerge : ∀ old m, Q old → merge old new = .ok m → Q m)
    (hok : Cosmos.mergeInto name merge new table = .ok result) : Under name result key Q := by
  obtain ⟨⟨x, hx, hname⟩, hall⟩ := h
  rcases mergeInto_ok hok with ⟨hnew, rfl⟩ | ⟨before, old, after, m, rfl, hold, hm, rfl⟩
  · refine ⟨⟨x, List.mem_append_left _ hx, hname⟩, List.forall_mem_append.2 ⟨hall, ?_⟩⟩
    intro y hy hkey
    rw [List.mem_singleton.1 hy] at hkey
    rw [hkey, ← hname] at hnew
    exact absurd (List.mem_map_of_mem hx) hnew
  · have hkept : name m = name old := (hkeeps old new m hold hm).trans hold.symm
    obtain ⟨hbefore, hafter⟩ := List.forall_mem_append.1 hall
    obtain ⟨hQ, hafter⟩ := List.forall_mem_cons.1 hafter
    refine ⟨?_, List.forall_mem_append.2 ⟨hbefore, List.forall_mem_cons.2 ⟨?_, hafter⟩⟩⟩
    · rcases List.mem_append.1 hx with hx | hx
      · exact ⟨x, List.mem_append_left _ hx, hname⟩
      · rcases List.mem_cons.1 hx with rfl | hx
        · exact ⟨m, by simp, hkept.trans hname⟩
        · exact ⟨x, by simp [hx], hname⟩
    · intro hkey
      exact hmerge old m (hQ (hkept.symm.trans hkey)) hm

/-- Merging in many items keeps what holds under a name, if merging does. -/
theorem mergeAll {items : List α} (h : Under name table key Q) (hkeeps : KeepsName name merge)
    (hmerge : ∀ new ∈ items, ∀ old m, Q old → merge old new = .ok m → Q m)
    (hok : Cosmos.mergeAll name merge items table = .ok result) : Under name result key Q := by
  induction items generalizing table with
  | nil =>
      cases hok
      exact h
  | cons x items ih =>
      obtain ⟨mid, hmid, hok⟩ := bind_eq_ok.1 hok
      obtain ⟨hx, hitems⟩ := List.forall_mem_cons.1 hmerge
      exact ih (h.mergeInto hkeeps hx hmid) hitems hok

end Under

/-- What an item brings in is there after it came in. -/
theorem under_mergeInto {new : α} {table result : List α} {Q : α → Prop}
    (hkeeps : KeepsName name merge) (hnodup : (table.map name).Nodup)
    (hfirst : name new ∉ table.map name → Q new)
    (hmerge : ∀ old m, merge old new = .ok m → Q m)
    (hok : mergeInto name merge new table = .ok result) : Under name result (name new) Q := by
  have hunique := nodup_mergeInto hkeeps hnodup hok
  rcases mergeInto_ok hok with ⟨hnew, rfl⟩ | ⟨before, old, after, m, rfl, hold, hm, rfl⟩
  · refine ⟨⟨new, by simp, rfl⟩, List.forall_mem_append.2 ⟨fun x hx hname => ?_, ?_⟩⟩
    · rw [← hname] at hnew
      exact absurd (List.mem_map_of_mem hx) hnew
    · simpa using hfirst hnew
  · have hname : name m = name new := hkeeps old new m hold hm
    refine ⟨⟨m, by simp, hname⟩, fun x hx hsame => ?_⟩
    -- names are distinct, so no other item has this one
    have hx' : x = m := List.inj_on_of_nodup_map hunique hx (by simp) (hsame.trans hname.symm)
    rw [hx']
    exact hmerge old m hm

/-- What an item brings in is there at the end, if the items after it keep
it. -/
theorem under_mergeAll {before after : List α} {new : α} {table result : List α} {Q : α → Prop}
    (hkeeps : KeepsName name merge) (hnodup : (table.map name).Nodup)
    (hfirst : name new ∉ table.map name → name new ∉ before.map name → Q new)
    (hmerge : ∀ old m, merge old new = .ok m → Q m)
    (hafter : ∀ x ∈ after, ∀ old m, Q old → merge old x = .ok m → Q m)
    (hok : mergeAll name merge (before ++ new :: after) table = .ok result) :
    Under name result (name new) Q := by
  obtain ⟨mid, hmid, hok⟩ := mergeAll_append.1 hok
  obtain ⟨next, hnext, hok⟩ := bind_eq_ok.1 hok
  have hnames := names_mergeAll hkeeps hnodup hmid
  have hunique : (mid.map name).Nodup := nodup_mergeAll hkeeps hnodup hmid
  refine (under_mergeInto hkeeps hunique (fun hout => ?_) hmerge hnext).mergeAll hkeeps hafter hok
  rw [hnames, List.mem_eraseDups, List.mem_append, not_or] at hout
  exact hfirst hout.1 hout.2

end Depot.Cosmos
