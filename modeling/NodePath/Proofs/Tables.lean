import Mathlib.Data.List.Sort
import NodePath.Text.Table

/-!
# Looking up in tables

After an insert a name has its new value and every other name the value that it had. A table whose
names ascend is known by what is found in it, and stays so under all that is done to it. Where a table
is filled by one item after the other, the last item that gives a name a value prevails.
-/

namespace NodePath.Text.Table

variable {α : Type}

theorem get?_cons (name : Bytes) (value : α) (t : Table α) (other : Bytes) :
    Table.get? ((name, value) :: t) other = if other = name then some value else t.get? other := by
  by_cases h : other = name <;> simp [Table.get?, List.lookup_cons, beq_eq_false_iff_ne.mpr, h]

theorem get?_insert (t : Table α) (name other : Bytes) (value : α) :
    (Table.insert name value t).get? other = if other = name then some value else t.get? other := by
  induction t with
  | nil => exact get?_cons name value [] other
  | cons entry rest ih =>
    obtain ⟨first, held⟩ := entry
    rw [Table.insert]
    split
    · next heq =>
      subst heq
      rw [get?_cons, get?_cons]
      split <;> rfl
    · next hne =>
      split
      · exact get?_cons name value _ other
      · rw [get?_cons, ih, get?_cons]
        by_cases hother : other = name
        · rw [if_pos hother, if_pos hother, if_neg (hother ▸ Ne.symm hne)]
        · rw [if_neg hother, if_neg hother]

theorem precedes_iff (a b : Bytes) : precedes a b = true ↔ a < b := by
  fun_induction precedes a b with
  | case1 a => simp
  | case2 b bs => simp
  | case3 a as bs ih => simp [ih]
  | case4 a as b bs h => simp [List.cons_lt_cons_iff, h]

/-- A name that is found in the second table has its value there, any other its value in the first. -/
theorem get?_merge (t u : Table α) (hu : (u.map Prod.fst).Nodup) (name : Bytes) :
    (t.merge u).get? name = (u.get? name).or (t.get? name) := by
  induction u generalizing t with
  | nil => rfl
  | cons entry rest ih =>
    obtain ⟨first, held⟩ := entry
    obtain ⟨hfirst, hrest⟩ := List.nodup_cons.mp hu
    show ((t.insert first held).merge rest).get? name = _
    rw [ih _ hrest, get?_insert, get?_cons]
    by_cases hname : name = first
    · have hnone : get? rest name = none := by
        rw [get?, List.lookup_eq_none_iff]
        intro entry hentry
        have hmem : entry.1 ∈ rest.map Prod.fst := List.mem_map_of_mem hentry
        rw [hname, bne_iff_ne]
        rintro rfl
        exact hfirst hmem
      rw [if_pos hname, if_pos hname, hnone]
      rfl
    · rw [if_neg hname, if_neg hname]

/-- The names ascend, so that none occurs twice. -/
def Ascending (t : Table α) : Prop := (t.map Prod.fst).Pairwise (· < ·)

theorem mem_insert {t : Table α} {name : Bytes} {value : α} {entry : Bytes × α}
    (h : entry ∈ t.insert name value) : entry = (name, value) ∨ entry ∈ t := by
  induction t with
  | nil => exact .inl (List.mem_singleton.mp h)
  | cons first t ih =>
    obtain ⟨n, v⟩ := first
    unfold insert at h
    split at h
    · exact (List.mem_cons.mp h).imp_right (List.mem_cons_of_mem _)
    · split at h
      · exact List.mem_cons.mp h
      · rcases List.mem_cons.mp h with rfl | h
        · exact .inr List.mem_cons_self
        · exact (ih h).imp_right (List.mem_cons_of_mem _)

theorem Ascending.insert {t : Table α} (h : t.Ascending) (name : Bytes) (value : α) :
    (t.insert name value).Ascending := by
  induction t with
  | nil => exact List.pairwise_singleton ..
  | cons first t ih =>
    obtain ⟨n, v⟩ := first
    obtain ⟨hfirst, hrest⟩ := List.pairwise_cons.mp h
    unfold Table.insert
    split
    · next heq =>
      subst heq
      exact h
    · next hne =>
      split
      · next hbefore =>
        rw [precedes_iff] at hbefore
        refine List.pairwise_cons.mpr ⟨fun m hm => ?_, h⟩
        rcases List.mem_cons.mp hm with rfl | hm
        · exact hbefore
        · exact List.lt_trans hbefore (hfirst m hm)
      · next hafter =>
        rw [precedes_iff] at hafter
        refine List.pairwise_cons.mpr ⟨fun m hm => ?_, ih hrest⟩
        obtain ⟨entry, hentry, rfl⟩ := List.mem_map.mp hm
        rcases mem_insert hentry with rfl | hentry
        · exact Std.lt_of_le_of_ne hafter hne
        · exact hfirst _ (List.mem_map_of_mem hentry)

theorem Ascending.merge {t : Table α} (h : t.Ascending) (entries : List (Bytes × α)) :
    (t.merge entries).Ascending := by
  induction entries generalizing t with
  | nil => exact h
  | cons entry entries ih => exact ih (h.insert entry.1 entry.2)

theorem mem_merge {t : Table α} {entries : List (Bytes × α)} {entry : Bytes × α}
    (h : entry ∈ t.merge entries) : entry ∈ t ∨ entry ∈ entries := by
  induction entries generalizing t with
  | nil => exact .inl h
  | cons first entries ih =>
    rcases ih h with h | h
    · rcases mem_insert h with rfl | h
      · exact .inr List.mem_cons_self
      · exact .inl h
    · exact .inr (List.mem_cons_of_mem _ h)

/-- An entry behind all others is put at the end. -/
theorem insert_last {t : Table α} {name : Bytes} (h : ∀ n ∈ t.map Prod.fst, n < name) (value : α) :
    t.insert name value = t ++ [(name, value)] := by
  induction t with
  | nil => rfl
  | cons first t ih =>
    obtain ⟨n, v⟩ := first
    have hn : n < name := h n List.mem_cons_self
    have hne : n ≠ name := by
      rintro rfl
      exact List.lt_irrefl n hn
    have hafter : ¬precedes name n = true := by
      rw [precedes_iff]
      exact List.lt_asymm hn
    unfold insert
    rw [if_neg hne, if_neg hafter, ih fun m hm => h m (List.mem_cons_of_mem _ hm)]
    rfl

theorem Ascending.merge_eq {t entries : Table α} (h : Ascending (t ++ entries)) :
    t.merge entries = t ++ entries := by
  induction entries generalizing t with
  | nil => exact (List.append_nil t).symm
  | cons entry entries ih =>
    obtain ⟨name, value⟩ := entry
    have hbefore : ∀ n ∈ t.map Prod.fst, n < name := by
      rw [Ascending, List.map_append, List.pairwise_append] at h
      exact fun n hn => h.2.2 n hn name List.mem_cons_self
    have hrest : Ascending (t ++ [(name, value)] ++ entries) := by
      rwa [List.append_assoc]
    show (t.insert name value).merge entries = _
    rw [insert_last hbefore, ih hrest, List.append_assoc]
    rfl

/-- A table is its own table. -/
theorem Ascending.ofList_eq {t : Table α} (h : t.Ascending) : Table.ofList t = t :=
  Ascending.merge_eq (t := []) h

theorem Ascending.nodup {t : Table α} (h : t.Ascending) : (t.map Prod.fst).Nodup := by
  refine List.Pairwise.imp ?_ h
  rintro a _ hlt rfl
  exact List.lt_irrefl a hlt

theorem Ascending.mem_iff {t : Table α} (h : t.Ascending) {name : Bytes} {value : α} :
    (name, value) ∈ t ↔ t.get? name = some value := by
  induction t with
  | nil => simp [get?]
  | cons entry rest ih =>
    obtain ⟨first, held⟩ := entry
    obtain ⟨hfirst, hrest⟩ := List.pairwise_cons.mp h
    rw [get?_cons, List.mem_cons, Prod.mk.injEq]
    by_cases hname : name = first
    · have hnone : (name, value) ∉ rest := by
        intro hmem
        have hlt : first < name := hfirst name (List.mem_map_of_mem hmem)
        exact List.lt_irrefl first (hname ▸ hlt)
      simp [hname ▸ hnone, hname, eq_comm]
    · rw [ih hrest]
      simp [hname]

/-- Tables in which the same is found are the same. -/
theorem Ascending.ext {t u : Table α} (ht : t.Ascending) (hu : u.Ascending)
    (h : ∀ name, t.get? name = u.get? name) : t = u := by
  have hbefore : ∀ {t : Table α}, t.Ascending → t.Pairwise fun a b => a.1 < b.1 :=
    fun h => List.pairwise_map.mp h
  refine List.Pairwise.eq_of_mem_iff (hbefore ht) (hbefore hu) fun entry => ?_
  rw [ht.mem_iff, hu.mem_iff, h]

section Last

variable {ι : Type} {gives : ι → Bytes → α → Prop} {item : ι} {items : List ι}
variable {name : Bytes} {value : α}

/-- None of the items gives the name a value. -/
def Unset (gives : ι → Bytes → α → Prop) (items : List ι) (name : Bytes) : Prop :=
  ∀ item ∈ items, ∀ value, ¬gives item name value

/-- Of the items that give the name a value the last one gives it this value. -/
def LastGiven (gives : ι → Bytes → α → Prop) (items : List ι) (name : Bytes) (value : α) : Prop :=
  ∃ front item back, items = front ++ item :: back ∧ gives item name value ∧ Unset gives back name

theorem unset_cons : Unset gives (item :: items) name ↔
    (∀ value, ¬gives item name value) ∧ Unset gives items name :=
  List.forall_mem_cons

theorem not_lastGiven_nil : ¬LastGiven gives [] name value := by
  rintro ⟨front, item, back, hitems, -⟩
  cases front <;> cases hitems

theorem lastGiven_cons : LastGiven gives (item :: items) name value ↔
    LastGiven gives items name value ∨ gives item name value ∧ Unset gives items name := by
  constructor
  · rintro ⟨front, last, back, hitems, hlast, hback⟩
    cases front with
    | nil =>
      cases hitems
      exact .inr ⟨hlast, hback⟩
    | cons first front =>
      cases hitems
      exact .inl ⟨front, last, back, rfl, hlast, hback⟩
  · rintro (⟨front, last, back, rfl, hlast, hback⟩ | ⟨hitem, hitems⟩)
    · exact ⟨item :: front, last, back, rfl, hlast, hback⟩
    · exact ⟨[], item, items, rfl, hitem, hitems⟩

theorem exists_lastGiven (hitem : item ∈ items) (hgives : gives item name value) :
    ∃ last, LastGiven gives items name last := by
  induction items generalizing item value with
  | nil => cases hitem
  | cons first items ih =>
    by_cases hunset : Unset gives items name
    · rcases List.mem_cons.mp hitem with rfl | hmem
      · exact ⟨value, lastGiven_cons.mpr (.inr ⟨hgives, hunset⟩)⟩
      · exact absurd hgives (hunset item hmem value)
    · obtain ⟨other, hmem, v, hother⟩ : ∃ other ∈ items, ∃ v, gives other name v := by
        simpa [Unset] using hunset
      obtain ⟨last, hlast⟩ := ih hmem hother
      exact ⟨last, lastGiven_cons.mpr (.inl hlast)⟩

theorem LastGiven.not_unset (h : LastGiven gives items name value) : ¬Unset gives items name := by
  obtain ⟨front, item, back, rfl, hitem, -⟩ := h
  exact fun hunset => hunset item (by simp) value hitem

/-- In the second table a name has what the items gave it last, or else what it has in the first. -/
def Updates (gives : ι → Bytes → α → Prop) (items : List ι) (t u : Table α) : Prop :=
  ∀ name value, u.get? name = some value ↔
    LastGiven gives items name value ∨ Unset gives items name ∧ t.get? name = some value

variable {t u : Table α}

theorem Updates.nil : Updates gives [] t t := by
  simp [Updates, not_lastGiven_nil, Unset]

theorem Updates.skip (hitem : ∀ name value, ¬gives item name value) (h : Updates gives items t u) :
    Updates gives (item :: items) t u := by
  intro name value
  rw [h, lastGiven_cons, unset_cons]
  simp [hitem]

theorem Updates.insert {key : Bytes} {held : α}
    (hitem : ∀ name value, gives item name value ↔ name = key ∧ value = held)
    (h : Updates gives items (t.insert key held) u) : Updates gives (item :: items) t u := by
  intro name value
  rw [h, lastGiven_cons, unset_cons, get?_insert]
  by_cases hname : name = key
  · simp [hitem, hname, and_comm, eq_comm]
  · simp [hitem, hname]

theorem Updates.get?_iff (h : Updates gives items [] u) :
    u.get? name = some value ↔ LastGiven gives items name value := by
  rw [h]
  simp [get?]

/-- A table merged over another one updates it as it would have been filled. -/
theorem Updates.merge (h : Updates gives items [] u) (hu : u.Ascending) (t : Table α) :
    Updates gives items t (t.merge u) := by
  intro name value
  rw [get?_merge t u hu.nodup, Option.or_eq_some_iff, h.get?_iff]
  refine or_congr_right (and_congr_left' ?_)
  rw [Option.eq_none_iff_forall_ne_some]
  constructor
  · intro hnone item hitem value hgives
    obtain ⟨last, hlast⟩ := exists_lastGiven hitem hgives
    exact hnone last (h.get?_iff.mpr hlast)
  · exact fun hunset value hvalue => (h.get?_iff.mp hvalue).not_unset hunset

end Last

end NodePath.Text.Table
