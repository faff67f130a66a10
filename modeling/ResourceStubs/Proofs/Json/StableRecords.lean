import ResourceStubs.Proofs.Json.StableObjects

/-!
# Records that do not notice edits

The members of a record are read one after the other into slots, and the slots are closed at the
end. What is seen of a record is said without slots: every key stands for a text, and each member of
the record has one value or is left out (`Json.Collects`). This does not depend on the order of the
members, and members that the record does not have play no part in it. A record that is written as a
list is seen item by item (`Json.Lists`).

The members of a record are matched with the table of its structure (`Json.FieldsStable`). The table
says where edits can take place in their values and which value a member that is left out stands
for.
-/

namespace ResourceStubs

/-- The names of the members of a record. -/
def Fields.names {R : Type → Type} {αs : List Type} : Fields R αs → List String
  | .nil => []
  | .cons field rest => field.name :: rest.names

namespace Json

variable {α : Type} {αs : List Type} {k : Kind} {bound : Nat} {t : Tree}

/-- How readers may be related to trees and values. -/
abbrev Sight := ∀ α : Type, Reader α → Tree → α → Prop

/-- Each member of the record has one value among the members of the object, or it is left out. -/
def Collects (sight : Sight) (members : List (List Part × Tree)) :
    {αs : List Type} → Fields Reader αs → Row αs → Prop
  | _, .nil, () => True
  | _, .cons field rest, (a, row) =>
    (valuesOf field.name members = [] ∧ field.absent = some a ∨
      ∃ t, valuesOf field.name members = [t] ∧ sight _ field.read t a) ∧
        Collects sight members rest row

/-- The members of the record are the items of a list, where the last ones can be left out. -/
def Lists (sight : Sight) : {αs : List Type} → Fields Reader αs → List Tree → Row αs → Prop
  | _, .nil, items, () => items = []
  | _, .cons field rest, [], (a, row) => field.absent = some a ∧ Lists sight rest [] row
  | _, .cons field rest, t :: items, (a, row) => sight _ field.read t a ∧ Lists sight rest items row

/-! ## Slots -/

/-- The members fill slots that were empty. -/
def FillsSlots (sight : Sight) (members : List (List Part × Tree)) :
    {αs : List Type} → Fields Reader αs → Slots αs → Slots αs → Prop
  | _, .nil, (), () => True
  | _, .cons field rest, (slot, slots), (slot', slots') =>
    (valuesOf field.name members = [] ∧ slot' = slot ∨
      ∃ t a, valuesOf field.name members = [t] ∧ slot = none ∧ slot' = some a ∧
        sight _ field.read t a) ∧
    FillsSlots sight members rest slots slots'

section Slots

variable {sight : Sight} {members : List (List Part × Tree)} {key : List Part} {name : String}

/-- Members that the record does not have fill no slot. -/
lemma fillsSlots_iff_of_valuesOf {fields : Fields Reader αs}
    (h : ∀ name ∈ fields.names, valuesOf name members = []) {slots slots' : Slots αs} :
    FillsSlots sight members fields slots slots' ↔ slots' = slots := by
  induction fields with
  | nil => exact iff_of_true trivial rfl
  | cons field rest ih =>
    obtain ⟨slot, slots⟩ := slots
    obtain ⟨slot', slots'⟩ := slots'
    obtain ⟨hfield, hrest⟩ := List.forall_mem_cons.1 h
    rw [FillsSlots, hfield, ih hrest]
    constructor
    · rintro ⟨⟨-, rfl⟩ | ⟨u, a, hu, -⟩, rfl⟩
      · rfl
      · cases hu
    · intro hslots
      obtain ⟨rfl, rfl⟩ := Prod.mk.inj hslots
      exact ⟨.inl ⟨rfl, rfl⟩, rfl⟩

lemma fillsSlots_nil_iff {fields : Fields Reader αs} {slots slots' : Slots αs} :
    FillsSlots sight [] fields slots slots' ↔ slots' = slots :=
  fillsSlots_iff_of_valuesOf fun _ _ => rfl

lemma fillsSlots_iff_of_not_mem {fields : Fields Reader αs} (hname : keyText key = some name)
    (h : name ∉ fields.names) {slots slots' : Slots αs} :
    FillsSlots sight [(key, t)] fields slots slots' ↔ slots' = slots := by
  refine fillsSlots_iff_of_valuesOf fun other hother => valuesOf_singleton_of_ne t hname ?_
  rintro rfl
  exact h hother

/-- Members fill slots one after the other. -/
lemma fillsSlots_cons_iff {m : List Part × Tree} {fields : Fields Reader αs}
    {slots slots' : Slots αs} :
    FillsSlots sight (m :: members) fields slots slots' ↔
      ∃ between, FillsSlots sight [m] fields slots between ∧
        FillsSlots sight members fields between slots' := by
  induction fields with
  | nil => exact ⟨fun _ => ⟨(), trivial, trivial⟩, fun _ => trivial⟩
  | cons field rest ih =>
    obtain ⟨slot, slots⟩ := slots
    obtain ⟨slot', slots'⟩ := slots'
    have hvalues : valuesOf field.name (m :: members) =
        valuesOf field.name [m] ++ valuesOf field.name members :=
      valuesOf_append field.name [m] members
    rw [FillsSlots, hvalues, ih]
    constructor
    · rintro ⟨hslot, between, hfirst, hmore⟩
      rcases hslot with ⟨hnil, rfl⟩ | ⟨u, a, hu, rfl, rfl, hsight⟩
      · obtain ⟨hnone, hmore'⟩ := List.append_eq_nil_iff.1 hnil
        exact ⟨(slot', between), ⟨.inl ⟨hnone, rfl⟩, hfirst⟩, .inl ⟨hmore', rfl⟩, hmore⟩
      · rcases List.append_eq_singleton_iff.1 hu with ⟨hnone, hsome⟩ | ⟨hsome, hnone⟩
        · exact ⟨(none, between), ⟨.inl ⟨hnone, rfl⟩, hfirst⟩,
            .inr ⟨u, a, hsome, rfl, rfl, hsight⟩, hmore⟩
        · exact ⟨(some a, between), ⟨.inr ⟨u, a, hsome, rfl, rfl, hsight⟩, hfirst⟩,
            .inl ⟨hnone, rfl⟩, hmore⟩
    · rintro ⟨⟨slot₁, between⟩, ⟨hslot₁, hfirst⟩, hslot', hmore⟩
      refine ⟨?_, between, hfirst, hmore⟩
      rcases hslot₁ with ⟨hnone, rfl⟩ | ⟨u, a, hsome, rfl, rfl, hsight⟩
      · rw [hnone, List.nil_append]
        exact hslot'
      · rcases hslot' with ⟨hnone, rfl⟩ | ⟨-, -, -, hfull, -⟩
        · rw [hsome, hnone]
          exact .inr ⟨u, a, rfl, rfl, rfl, hsight⟩
        · cases hfull

/-- Closed slots hold what the members say. -/
lemma collects_of_close {fields : Fields Reader αs} {slots : Slots αs} {row : Row αs}
    (hfills : FillsSlots sight members fields (Slots.empty αs) slots)
    (hclose : fields.close slots = .ok row) :
    Collects sight members fields row := by
  induction fields with
  | nil => trivial
  | cons field rest ih =>
    obtain ⟨slot, slots⟩ := slots
    obtain ⟨hslot, hslots⟩ := hfills
    rw [Fields.close] at hclose
    cases hvalue : slot.or field.absent with
    | none =>
      rw [hvalue] at hclose
      cases hclose
    | some a =>
      rw [hvalue] at hclose
      cases hrest : rest.close slots with
      | error missing =>
        rw [hrest] at hclose
        cases hclose
      | ok values =>
        rw [hrest] at hclose
        cases hclose
        refine ⟨?_, ih hslots hrest⟩
        rcases hslot with ⟨hnone, rfl⟩ | ⟨u, b, hsome, -, rfl, hsight⟩
        · exact .inl ⟨hnone, hvalue⟩
        · cases hvalue
          exact .inr ⟨u, hsome, hsight⟩

lemma Collects.exists_slots {fields : Fields Reader αs} {row : Row αs}
    (h : Collects sight members fields row) :
    ∃ slots, FillsSlots sight members fields (Slots.empty αs) slots ∧
      fields.close slots = .ok row := by
  induction fields with
  | nil => exact ⟨(), trivial, rfl⟩
  | cons field rest ih =>
    obtain ⟨a, row⟩ := row
    obtain ⟨hvalue, hrow⟩ := h
    obtain ⟨slots, hfills, hclose⟩ := ih hrow
    rcases hvalue with ⟨hnone, habsent⟩ | ⟨u, hsome, hsight⟩
    · refine ⟨(none, slots), ⟨.inl ⟨hnone, rfl⟩, hfills⟩, ?_⟩
      rw [Fields.close, habsent, hclose]
      rfl
    · refine ⟨(some a, slots), ⟨.inr ⟨u, a, hsome, rfl, rfl, hsight⟩, hfills⟩, ?_⟩
      rw [Fields.close, hclose]
      rfl

end Slots

/-! ## Members of an object -/

/-- What readers see at a depth. -/
def seenAt (depth : Nat) : Sight := fun _ reader t a => Seen (reader depth) t a

/-- What readers read at a depth. -/
def readAt (depth : Nat) : Sight := fun _ reader t a => Reads (reader depth) t a

/-- The readers of all members stop behind the values they read. -/
def FieldsStop : {αs : List Type} → Fields Reader αs → Prop
  | _, .nil => True
  | _, .cons field rest => (∀ depth, StopsBehind (field.read depth)) ∧ FieldsStop rest

section Members

variable {depth : Nat} {key : List Part} {name : String} {mark text rest : List Char}
  {members : List (List Part × Tree)}

lemma member_nil (name : String) (s : List Char) :
    member depth name .nil () s = (colon >>= fun _ => skip) s := rfl

lemma member_repeated (field : RecordField Reader α) (fields : Fields Reader αs) (a : α)
    (slots : Slots αs) :
    member depth field.name (.cons field fields) (some a, slots) =
      throw (.duplicateField field.name) := by
  rw [member]
  exact (if_pos rfl).trans (if_pos rfl)

/-- A member that was read fills its slot. -/
lemma fillsSlots_of_member {fields : Fields Reader αs} (hstop : FieldsStop fields)
    (hnames : fields.names.Nodup) (hname : keyText key = some name) (hmark : IsMark ':' mark)
    (htext : t.WrittenAs text) (hrest : Follows rest) {slots slots' : Slots αs} {s : List Char}
    (h : member depth name fields slots (mark ++ (text ++ rest)) = .ok (slots', s)) :
    FillsSlots (seenAt depth) [(key, t)] fields slots slots' ∧ s = rest := by
  obtain ⟨blank, hblank, hcolon⟩ := colon_mark hmark
  induction fields generalizing s with
  | nil =>
    cases h.symm.trans
      ((member_nil name _).trans ((bind_of_ok (hcolon _)).trans (skip_tree htext hblank hrest)))
    exact ⟨trivial, rfl⟩
  | cons field fields ih =>
    obtain ⟨slot, slots⟩ := slots
    obtain ⟨hfield, hfields⟩ := List.nodup_cons.1 hnames
    by_cases hkey : field.name = name
    · subst hkey
      cases slot with
      | some a =>
        rw [member_repeated] at h
        cases h
      | none =>
        rw [member_here, bind_of_ok (hcolon _)] at h
        obtain ⟨a, s₁, hvalue, hpure⟩ := exists_of_bind_eq_ok h
        have hs := hstop.1 depth htext hblank hrest hvalue
        subst hs
        cases hpure
        have hseen : Seen (field.read depth) t a :=
          ⟨text, blank, _, _, htext, hblank, hrest, hvalue⟩
        exact ⟨⟨.inr ⟨t, a, valuesOf_singleton_self t hname, rfl, rfl, hseen⟩,
          (fillsSlots_iff_of_not_mem hname hfield).2 rfl⟩, rfl⟩
    · rw [member_later hkey] at h
      obtain ⟨slots, s₁, hmember, hpure⟩ := exists_of_bind_eq_ok h
      obtain ⟨hfills, hs⟩ := ih hstop.2 hfields hmember
      subst hs
      cases hpure
      exact ⟨⟨.inl ⟨valuesOf_singleton_of_ne t hname (Ne.symm hkey), rfl⟩, hfills⟩, rfl⟩

lemma member_of_fillsSlots {fields : Fields Reader αs} (hnames : fields.names.Nodup)
    (hname : keyText key = some name) (hmark : IsMark ':' mark) (htext : t.WrittenAs text)
    (hrest : Follows rest) {slots slots' : Slots αs}
    (h : FillsSlots (readAt depth) [(key, t)] fields slots slots') :
    member depth name fields slots (mark ++ (text ++ rest)) = .ok (slots', rest) := by
  obtain ⟨blank, hblank, hcolon⟩ := colon_mark hmark
  induction fields with
  | nil =>
    exact (member_nil name _).trans ((bind_of_ok (hcolon _)).trans (skip_tree htext hblank hrest))
  | cons field fields ih =>
    obtain ⟨slot, slots⟩ := slots
    obtain ⟨slot', slots'⟩ := slots'
    obtain ⟨hfield, hfields⟩ := List.nodup_cons.1 hnames
    obtain ⟨hslot, hslots⟩ := h
    by_cases hkey : field.name = name
    · subst hkey
      rw [valuesOf_singleton_self t hname] at hslot
      obtain ⟨hnone, -⟩ | ⟨u, a, hu, rfl, rfl, hreads⟩ := hslot
      · cases hnone
      · cases hu
        obtain rfl := (fillsSlots_iff_of_not_mem hname hfield).1 hslots
        rw [member_here, bind_of_ok (hcolon _)]
        exact bind_of_ok (hreads htext hblank hrest)
    · rw [valuesOf_singleton_of_ne t hname (Ne.symm hkey)] at hslot
      obtain ⟨-, rfl⟩ | ⟨u, a, hu, -⟩ := hslot
      · rw [member_later hkey]
        exact bind_of_ok (ih hfields hslots)
      · cases hu

/-- Members that were read have keys that stand for texts, and they fill the slots. -/
lemma fillsSlots_of_members {fields : Fields Reader αs} (hstop : FieldsStop fields)
    (hnames : fields.names.Nodup) {steps : Nat} {first : Bool} {s s' : List Char}
    (hs : Tree.MembersAs first members s) {slots slots' : Slots αs}
    (h : Json.members fields depth steps first slots (s ++ '}' :: rest) = .ok (slots', s')) :
    (∀ m ∈ members, (keyText m.1).isSome) ∧ FillsSlots (seenAt depth) members fields slots slots' ∧
      s' = '}' :: rest := by
  induction members generalizing steps first s slots with
  | nil =>
    cases steps with
    | zero => cases h
    | succ steps =>
      rw [Json.members, bind_of_ok (hasKey_end first hs rest)] at h
      cases h
      exact ⟨List.forall_mem_nil _, fillsSlots_nil_iff.2 rfl, rfl⟩
  | cons m members ih =>
    cases steps with
    | zero => cases h
    | succ steps =>
      obtain ⟨key, t⟩ := m
      obtain ⟨lead, mark, text, more, hlead, hmark, htext, hmore, rfl⟩ := hs
      simp only [List.append_assoc] at h
      rw [Json.members, bind_of_ok (hasKey_member hlead key _)] at h
      obtain ⟨name, s₁, hquoted, h⟩ := exists_of_bind_eq_ok h
      obtain ⟨hname, hs₁⟩ := (quotedString_quoted key _).of_ok hquoted
      obtain ⟨between, s₂, hmember, h⟩ := exists_of_bind_eq_ok h
      subst hs₁
      obtain ⟨hfirst, hs₂⟩ :=
        fillsSlots_of_member hstop hnames hname hmark htext (Tree.follows_membersAs hmore rest)
          hmember
      subst hs₂
      obtain ⟨hkeys, hfills, rfl⟩ := ih hmore h
      exact ⟨List.forall_mem_cons.2 ⟨by simp [hname], hkeys⟩,
        fillsSlots_cons_iff.2 ⟨between, hfirst, hfills⟩, rfl⟩

lemma members_of_fillsSlots {fields : Fields Reader αs} (hnames : fields.names.Nodup)
    (hkeys : ∀ m ∈ members, (keyText m.1).isSome) {slots slots' : Slots αs}
    (h : FillsSlots (readAt depth) members fields slots slots') {steps : Nat}
    (hsteps : members.length < steps) {first : Bool} {s : List Char}
    (hs : Tree.MembersAs first members s) (rest : List Char) :
    Json.members fields depth steps first slots (s ++ '}' :: rest) = .ok (slots', '}' :: rest) := by
  induction members generalizing steps first s slots with
  | nil =>
    obtain ⟨steps, rfl⟩ := Nat.exists_eq_add_one_of_ne_zero (Nat.ne_zero_of_lt hsteps)
    obtain rfl := fillsSlots_nil_iff.1 h
    rw [Json.members, bind_of_ok (hasKey_end first hs rest)]
    rfl
  | cons m members ih =>
    obtain ⟨key, t⟩ := m
    obtain ⟨steps, rfl⟩ := Nat.exists_eq_add_one_of_ne_zero (Nat.ne_zero_of_lt hsteps)
    obtain ⟨lead, mark, text, more, hlead, hmark, htext, hmore, rfl⟩ := hs
    obtain ⟨hkey, hkeys⟩ := List.forall_mem_cons.1 hkeys
    obtain ⟨name, hname⟩ := Option.isSome_iff_exists.1 hkey
    obtain ⟨between, hfirst, hfills⟩ := fillsSlots_cons_iff.1 h
    have hmember :=
      member_of_fillsSlots hnames hname hmark htext (Tree.follows_membersAs hmore rest) hfirst
    simp only [List.append_assoc]
    rw [Json.members, bind_of_ok (hasKey_member hlead key _)]
    exact (bind_of_ok ((quotedString_quoted key _).1 name hname)).trans <|
      (bind_of_ok hmember).trans (ih hkeys hfills (Nat.lt_of_succ_lt_succ hsteps) hmore)

end Members

/-! ## Members of a list -/

section Rows

variable {depth : Nat} {expected : String}

section Equations

variable {field : RecordField Reader α} {fields : Fields Reader αs} {index : Nat} {s s' : List Char}

lemma row_item (h : hasElement (index = 0) s = .ok (true, s')) :
    row expected depth (.cons field fields) index s =
      (field.read depth >>= fun value => row expected depth fields (index + 1) >>= fun values =>
        pure (value, values)) s' :=
  bind_of_ok h

lemma row_end {a : α} (h : hasElement (index = 0) s = .ok (false, s'))
    (habsent : field.absent = some a) :
    row expected depth (.cons field fields) index s =
      (row expected depth fields (index + 1) >>= fun values => pure (a, values)) s' := by
  refine (bind_of_ok h).trans ?_
  rw [habsent]
  rfl

lemma row_missing (h : hasElement (index = 0) s = .ok (false, s')) (habsent : field.absent = none) :
    row expected depth (.cons field fields) index s = .error (.wrongLength index expected) := by
  refine (bind_of_ok h).trans ?_
  rw [habsent]
  rfl

end Equations

/-- A record that was read from a list was seen item by item. -/
lemma lists_of_row {fields : Fields Reader αs} (hstop : FieldsStop fields) {index : Nat}
    {items : List Tree} {s s₁ s₂ rest : List Char} (hs : Tree.ItemsAs (decide (index = 0)) items s)
    {values : Row αs} (hrow : row expected depth fields index (s ++ ']' :: rest) = .ok (values, s₁))
    (hclose : closeList s₁ = .ok ((), s₂)) :
    Lists (seenAt depth) fields items values ∧ s₂ = rest := by
  induction fields generalizing index items s with
  | nil =>
    cases hrow
    cases items with
    | nil =>
      cases hclose.symm.trans (closeList_end hs rest)
      exact ⟨rfl, rfl⟩
    | cons t items =>
      obtain ⟨lead, text, more, hlead, htext, -, rfl⟩ := hs
      rw [List.append_assoc, List.append_assoc] at hclose
      obtain ⟨e, he⟩ := closeList_item hlead htext (more ++ ']' :: rest)
      cases hclose.symm.trans he
  | cons field fields ih =>
    cases items with
    | nil =>
      have hend := hasElement_end (decide (index = 0)) hs rest
      cases habsent : field.absent with
      | none => cases hrow.symm.trans (row_missing hend habsent)
      | some a =>
        obtain ⟨values, s₀, hfields, hpure⟩ :=
          exists_of_bind_eq_ok ((row_end hend habsent).symm.trans hrow)
        cases hpure
        have hnone : Tree.ItemsAs (decide (index + 1 = 0)) [] [] := isBlank_nil
        obtain ⟨hlists, rfl⟩ := ih hstop.2 hnone hfields
        exact ⟨⟨habsent, hlists⟩, rfl⟩
    | cons t items =>
      obtain ⟨lead, text, more, hlead, htext, hmore, rfl⟩ := hs
      rw [List.append_assoc, List.append_assoc] at hrow
      have hitem := hasElement_item hlead htext (more ++ ']' :: rest)
      obtain ⟨a, s₀, hread, hrow⟩ := exists_of_bind_eq_ok ((row_item hitem).symm.trans hrow)
      have hfollows := Tree.follows_itemsAs hmore rest
      have hs₀ := hstop.1 depth htext isBlank_nil hfollows hread
      subst hs₀
      obtain ⟨values, s₀, hfields, hpure⟩ := exists_of_bind_eq_ok hrow
      cases hpure
      have hmore' : Tree.ItemsAs (decide (index + 1 = 0)) items more := hmore
      obtain ⟨hlists, rfl⟩ := ih hstop.2 hmore' hfields
      exact ⟨⟨⟨text, [], _, _, htext, isBlank_nil, hfollows, hread⟩, hlists⟩, rfl⟩

lemma row_of_lists {fields : Fields Reader αs} {items : List Tree} {values : Row αs}
    (h : Lists (readAt depth) fields items values) {index : Nat} {s : List Char}
    (hs : Tree.ItemsAs (decide (index = 0)) items s) (rest : List Char) :
    ∃ s₁, row expected depth fields index (s ++ ']' :: rest) = .ok (values, s₁) ∧
      closeList s₁ = .ok ((), rest) := by
  induction fields generalizing index items s with
  | nil =>
    obtain rfl : items = [] := h
    exact ⟨_, rfl, closeList_end hs rest⟩
  | cons field fields ih =>
    obtain ⟨a, values⟩ := values
    cases items with
    | nil =>
      obtain ⟨habsent, hlists⟩ := h
      have hnone : Tree.ItemsAs (decide (index + 1 = 0)) [] [] := isBlank_nil
      obtain ⟨s₁, hfields, hclose⟩ := ih hlists hnone
      have hend := hasElement_end (decide (index = 0)) hs rest
      exact ⟨s₁, (row_end hend habsent).trans (bind_of_ok hfields), hclose⟩
    | cons t items =>
      obtain ⟨hread, hlists⟩ := h
      obtain ⟨lead, text, more, hlead, htext, hmore, rfl⟩ := hs
      have hmore' : Tree.ItemsAs (decide (index + 1 = 0)) items more := hmore
      obtain ⟨s₁, hfields, hclose⟩ := ih hlists hmore'
      have hitem := hasElement_item hlead htext (more ++ ']' :: rest)
      have hvalue := hread htext isBlank_nil (Tree.follows_itemsAs hmore rest)
      rw [List.append_assoc, List.append_assoc]
      exact ⟨s₁, (row_item hitem).trans ((bind_of_ok hvalue).trans (bind_of_ok hfields)), hclose⟩

end Rows

/-! ## Records -/

section Records

variable {name : String} {fields : Fields Reader αs} {depth : Nat} {values : Row αs}

lemma record_blank {blank : List Char} (hblank : IsBlank blank) (s : List Char) :
    record name fields depth (blank ++ s) = record name fields depth s := by
  rw [record, bind_peek_blank hblank]

lemma record_refuses {s s' : List Char} {c : Char} (hpeek : peek s = .ok (some c, s'))
    (hbracket : c ≠ '[') (hbrace : c ≠ '{') : record name fields depth s = refuse name s' := by
  rw [record, bind_of_ok hpeek]
  simp [hbracket, hbrace]

lemma record_list_succ (inner : Nat) (s : List Char) :
    record name fields (inner + 1) ('[' :: s) =
      (row (lengthExpected name fields.count) inner fields 0 >>= fun values => closeList >>=
        fun _ => pure values) s :=
  rfl

/-- A record that was read is a list or an object of what was seen. -/
lemma seen_of_record (hstop : FieldsStop fields) (hnames : fields.names.Nodup)
    {text blank rest s : List Char} (htext : t.WrittenAs text) (hblank : IsBlank blank)
    (h : record name fields depth (blank ++ (text ++ rest)) = .ok (values, s)) :
    s = rest ∧ ∃ inner, depth = inner + 1 ∧
      ((∃ items, t = .array items ∧ Lists (seenAt inner) fields items values) ∨
        ∃ members, t = .object members ∧ (∀ m ∈ members, (keyText m.1).isSome) ∧
          Collects (seenAt inner) members fields values) := by
  obtain ⟨c, hc, hpeek⟩ := htext.peek
  by_cases hbracket : c = '['
  · obtain ⟨items, rfl⟩ := (hbracket ▸ hc).exists_array
    obtain ⟨inside, hinside, rfl⟩ := htext
    rw [record_blank hblank, List.cons_append, List.append_assoc, List.singleton_append] at h
    cases depth with
    | zero => cases h
    | succ inner =>
      rw [record_list_succ] at h
      obtain ⟨values, s₁, hrow, h⟩ := exists_of_bind_eq_ok h
      obtain ⟨_, s₂, hclose, hpure⟩ := exists_of_bind_eq_ok h
      cases hpure
      have hinside' : Tree.ItemsAs (decide (0 = 0)) items inside := hinside
      obtain ⟨hlists, rfl⟩ := lists_of_row hstop hinside' hrow hclose
      exact ⟨rfl, inner, rfl, .inl ⟨items, rfl, hlists⟩⟩
  by_cases hbrace : c = '{'
  · obtain ⟨members, rfl⟩ := (hbrace ▸ hc).exists_object
    obtain ⟨inside, hinside, rfl⟩ := htext
    rw [record_blank hblank, List.cons_append, List.append_assoc, List.singleton_append] at h
    cases depth with
    | zero => cases h
    | succ inner =>
      rw [record_succ] at h
      obtain ⟨slots, s₁, hmembers, h⟩ := exists_of_bind_eq_ok h
      obtain ⟨hkeys, hfills, rfl⟩ := fillsSlots_of_members hstop hnames hinside hmembers
      cases hclose : fields.close slots with
      | error missing =>
        rw [hclose] at h
        cases h
      | ok closed =>
        rw [hclose] at h
        cases h
        exact ⟨rfl, inner, rfl, .inr ⟨members, rfl, hkeys, collects_of_close hfills hclose⟩⟩
  · rw [record_refuses (hpeek blank rest hblank) hbracket hbrace] at h
    exact absurd h refuse_ne_ok

lemma reads_record_list {inner : Nat} {items : List Tree}
    (h : Lists (readAt inner) fields items values) :
    Reads (record name fields (inner + 1)) (.array items) values := by
  intro text blank rest htext hblank _
  obtain ⟨inside, hinside, rfl⟩ := htext
  have hinside' : Tree.ItemsAs (decide (0 = 0)) items inside := hinside
  obtain ⟨s₁, hrow, hclose⟩ := row_of_lists h hinside' rest
  rw [record_blank hblank, List.cons_append, List.append_assoc, List.singleton_append,
    record_list_succ]
  exact (bind_of_ok hrow).trans (bind_of_ok hclose)

lemma reads_record_object (hnames : fields.names.Nodup) {inner : Nat}
    {members : List (List Part × Tree)} (hkeys : ∀ m ∈ members, (keyText m.1).isSome)
    (h : Collects (readAt inner) members fields values) :
    Reads (record name fields (inner + 1)) (.object members) values := by
  intro text blank rest htext hblank _
  obtain ⟨inside, hinside, rfl⟩ := htext
  obtain ⟨slots, hfills, hclose⟩ := h.exists_slots
  have hlength := Tree.members_length_lt hinside ('}' :: rest)
  rw [record_blank hblank, List.cons_append, List.append_assoc, List.singleton_append, record_succ,
    bind_of_ok (members_of_fillsSlots hnames hkeys hfills hlength hinside rest), hclose]
  rfl

end Records

/-! ## Stable records -/

/-- The reader makes the value of the default. -/
def DefaultsTo (k : Kind) (d : Default) (reader : Reader α) (a : α) : Prop :=
  ∀ t, d.Is t → (∀ depth b, Seen (reader depth) t b → b = a) ∧ ∀ depth, k.nesting t ≤ depth →
    Reads (reader depth) t a

/-- The readers of a member are stable, and they agree with the table on what a missing member
stands for. -/
structure FieldStable (bound : Nat) (f : StructField) (field field' : RecordField Reader α) :
    Prop where
  name : field.name = f.name
  name' : field'.name = f.name
  absent : field'.absent = field.absent
  stable : Stable f.kind bound field.read field'.read
  default : ∀ d ∈ f.default, ∃ a, field.absent = some a ∧ DefaultsTo f.kind d field.read a ∧
    DefaultsTo f.kind d field'.read a

/-- The members of two readers are stable, in the order of the table. -/
inductive FieldsStable (bound : Nat) :
    {αs : List Type} → List StructField → Fields Reader αs → Fields Reader αs → Prop where
  | nil : FieldsStable bound [] .nil .nil
  | cons {α : Type} {αs : List Type} {f : StructField} {fs : List StructField}
      {field field' : RecordField Reader α} {fields fields' : Fields Reader αs}
      (first : FieldStable bound f field field') (more : FieldsStable bound fs fields fields') :
      FieldsStable bound (f :: fs) (.cons field fields) (.cons field' fields')

section StableRecords

variable {fs : List StructField} {fields fields' : Fields Reader αs} {values : Row αs}
  {inner inner' : Nat} {s : Struct}

lemma FieldsStable.fieldsStop (h : FieldsStable bound fs fields fields') : FieldsStop fields := by
  induction h with
  | nil => trivial
  | cons first more ih => exact ⟨first.stable.stopsBehind, ih⟩

lemma FieldsStable.names_eq (h : FieldsStable bound fs fields fields') :
    fields.names = fs.map (·.name) ∧ fields'.names = fs.map (·.name) := by
  induction h with
  | nil => exact ⟨rfl, rfl⟩
  | cons first more ih =>
    rw [Fields.names, Fields.names, List.map_cons, first.name, first.name', ih.1, ih.2]
    exact ⟨rfl, rfl⟩

/-- Edited items are read again. -/
lemma FieldsStable.lists (h : FieldsStable bound fs fields fields') (hbound : inner' < bound)
    {i : Nat} (hfs : s.fields.drop i = fs) {items items' : List Tree}
    (hvariants : ItemVariants (.struct s) i items items')
    (hnesting : (Kind.struct s).itemNesting i items' ≤ inner')
    (hlists : Lists (seenAt inner) fields items values) :
    Lists (readAt inner') fields' items' values := by
  induction h generalizing i items items' with
  | nil =>
    obtain rfl : items = [] := hlists
    cases items' with
    | nil => rfl
    | cons t' items' => cases hvariants
  | @cons _ _ f fs field field' fields fields' first more ih =>
    obtain ⟨a, values⟩ := values
    have hfs' : s.fields.drop (i + 1) = fs := by
      rw [← List.tail_drop, hfs, List.tail_cons]
    cases items with
    | nil =>
      cases items' with
      | nil =>
        have hnone : ItemVariants (.struct s) (i + 1) [] [] := trivial
        exact ⟨first.absent.trans hlists.1, ih hfs' hnone (Nat.zero_le _) hlists.2⟩
      | cons t' items' => cases hvariants
    | cons t items =>
      cases items' with
      | nil => cases hvariants
      | cons t' items' =>
        have hkind : (Kind.struct s).item i = f.kind := by
          have hget : s.fields[i]? = some f := by
            rw [← List.head?_drop, hfs]
            rfl
          rw [Kind.item, hget]
          rfl
        rw [Kind.itemNesting, hkind] at hnesting
        obtain ⟨hvariant, hvariants⟩ := hvariants
        rw [hkind] at hvariant
        exact ⟨first.stable.reads hbound hvariant (Nat.le_trans (Nat.le_max_left _ _) hnesting)
          hlists.1, ih hfs' hvariants (Nat.le_trans (Nat.le_max_right _ _) hnesting) hlists.2⟩

/-- Edited members are read again. -/
lemma FieldsStable.collects (h : FieldsStable bound fs fields fields') (hbound : inner' < bound)
    (hfs : ∀ f ∈ fs, f ∈ s.fields) {members members' : List (List Part × Tree)}
    (hedited : MembersEdited s members members')
    (hnesting : (Kind.struct s).memberNesting members' ≤ inner')
    (hcollects : Collects (seenAt inner) members fields values) :
    Collects (readAt inner') members' fields' values := by
  induction h with
  | nil => trivial
  | @cons _ _ f fs field field' fields fields' first more ih =>
    obtain ⟨a, values⟩ := values
    obtain ⟨hf, hfs⟩ := List.forall_mem_cons.1 hfs
    obtain ⟨hvalue, hmore⟩ := hcollects
    refine ⟨?_, ih hfs hmore⟩
    have hkind := Kind.member_struct hf
    have hnested {t : Tree} (ht : valuesOf f.name members' = [t]) : f.kind.nesting t ≤ inner' :=
      Nat.le_trans (nesting_le_of_mem_valuesOf hkind (by rw [ht]; exact List.mem_singleton_self t))
        hnesting
    have hedits := hedited.values f hf
    rw [first.name] at hvalue
    rw [first.name', first.absent]
    rcases hvalue with ⟨hnone, habsent⟩ | ⟨t, hsome, hseen⟩
    · -- the member was left out, and it may have been added with its default value
      rcases hedits.of_nil hnone with hnone' | ⟨t, hsome', d, hd, ht⟩
      · exact .inl ⟨hnone', habsent⟩
      · obtain ⟨b, hb, -, hdefault⟩ := first.default d hd
        cases habsent.symm.trans hb
        exact .inr ⟨t, hsome', (hdefault t ht).2 inner' (hnested hsome')⟩
    · -- the member was there, and it may have been edited, or removed if it had its default value
      rcases hedits.of_singleton t hsome with ⟨t', hsome', hvariant⟩ | ⟨hnone', d, hd, ht⟩
      · exact .inr ⟨t', hsome', first.stable.reads hbound hvariant (hnested hsome') hseen⟩
      · obtain ⟨b, hb, hdefault, -⟩ := first.default d hd
        cases (hdefault t ht).1 inner a hseen
        exact .inl ⟨hnone', hb⟩

/-- A record is stable if its members are. -/
lemma FieldsStable.record (h : FieldsStable bound s.fields fields fields') (name : String) :
    Stable (.struct s) (bound + 1) (record name fields) (record name fields') := by
  obtain ⟨hnames, hnames'⟩ := h.names_eq
  have hnodup : fields.names.Nodup := hnames ▸ s.nodup_names
  have hnodup' : fields'.names.Nodup := hnames' ▸ s.nodup_names
  constructor
  · intro depth t text blank rest s values htext hblank _ hok
    exact (seen_of_record h.fieldsStop hnodup htext hblank hok).1
  · intro depth depth' t t' values hdepth hvariant hnesting hseen
    obtain ⟨text, blank, rest, s, htext, hblank, hrest, hok⟩ := hseen
    obtain ⟨-, inner, rfl, ⟨items, rfl, hlists⟩ | ⟨members, rfl, hkeys, hcollects⟩⟩ :=
      seen_of_record h.fieldsStop hnodup htext hblank hok
    · obtain ⟨items', rfl, hvariants⟩ := hvariant.array
      rw [Kind.nesting] at hnesting
      obtain ⟨inner', rfl⟩ := Nat.exists_eq_add_one_of_ne_zero (n := depth') (by omega)
      exact reads_record_list (h.lists (by omega) rfl hvariants (by omega) hlists)
    · obtain ⟨members', rfl, hedited⟩ := hvariant.struct
      rw [Kind.nesting] at hnesting
      obtain ⟨inner', rfl⟩ := Nat.exists_eq_add_one_of_ne_zero (n := depth') (by omega)
      exact reads_record_object hnodup' (hedited.keys hkeys)
        (h.collects (by omega) (fun _ hf => hf) hedited (by omega) hcollects)

end StableRecords

end Json

end ResourceStubs
