import Mathlib.Data.List.Forall2
import Mathlib.Data.Option.Basic
import MarketReplay.Records.Results

/-!
# The order of members

The members of an object may be written in any order. `Json.Rearranged` relates two values that
differ in nothing else, at any depth, and `Json.OrderFree` says that a reader makes no difference
between such values.

What carries this from the readers of single values to those of records is that a field is found,
or missing, or named twice, whatever the order (`Json.Fields.Alike`): **a reader that asks for its
fields by place and name with readers that are free of the order is free of it too**
(`Json.OrderFree.ofFields`). All records are read in this way.
-/

set_option autoImplicit false

namespace MarketReplay

namespace Json

variable {α β γ : Type}

/-- The same value with the members of its objects in other orders. Members are moved first and
compared then, key by key, so that a value inside may be rearranged as well. -/
inductive Rearranged : Json α → Json α → Prop
  | refl (j : Json α) : Rearranged j j
  | list {items items' : List (Json α)} (hitems : List.Forall₂ Rearranged items items') :
      Rearranged (.list items) (.list items')
  | object {members moved members' : List (String × Json α)} (hmoved : members.Perm moved)
      (hkeys : moved.map Prod.fst = members'.map Prod.fst)
      (hvalues : List.Forall₂ Rearranged (moved.map Prod.snd) (members'.map Prod.snd)) :
      Rearranged (.object members) (.object members')

/-- A reader to which the order of members makes no difference. It is asked of all values and not
only of those that are written, so a value that is refused is refused in every order. -/
def OrderFree (decode : Json α → Option β) : Prop :=
  ∀ ⦃j j' : Json α⦄, Rearranged j j' → decode j = decode j'

/-! ## Readers of single values

Readers that look at no members are free of their order at once, and the ways to build readers from
others keep it. -/

section single

variable {decode : Json α → Option β}

theorem OrderFree.map (h : OrderFree decode) (f : β → γ) :
    OrderFree fun j => (decode j).map f :=
  fun _ _ hj => congrArg (Option.map f) (h hj)

theorem OrderFree.bind (h : OrderFree decode) (f : β → Option γ) :
    OrderFree fun j => (decode j).bind f :=
  fun _ _ hj => congrArg (Option.bind · f) (h hj)

theorem orderFree_intWithin? (range : IntRange) : OrderFree (intWithin? (α := α) range) := by
  rintro _ _ (_ | _ | _) <;> rfl

theorem orderFree_int64? : OrderFree (int64? (α := α)) := orderFree_intWithin? _

theorem orderFree_nat64? : OrderFree (nat64? (α := α)) := (orderFree_intWithin? _).map _

theorem orderFree_nat32? : OrderFree (nat32? (α := α)) := (orderFree_intWithin? _).map _

theorem orderFree_bool? : OrderFree (bool? (α := α)) := by
  rintro _ _ (_ | _ | _) <;> rfl

theorem orderFree_scalar? [Scalar α] : OrderFree (scalar? (α := α)) := by
  rintro _ _ (_ | _ | _) <;> rfl

theorem caseName?_of_length {members : List (String × Json α)} (h : members.length ≠ 1) :
    caseName? (.object members) = none := by
  unfold caseName?
  split
  · rename_i heq
    cases heq
  · rename_i heq
    cases heq
    exact absurd rfl h
  · rfl

theorem orderFree_caseName? : OrderFree (caseName? (α := α)) := by
  intro j j' h
  cases h with
  | refl => rfl
  | list => rfl
  | @object members moved members' hmoved hkeys hvalues =>
    have hlength : members.length = members'.length := by
      simpa [hmoved.length_eq] using congrArg List.length hkeys
    -- only an object of one member names a case
    by_cases hone : members.length = 1
    · obtain ⟨⟨name, value⟩, rfl⟩ := List.length_eq_one_iff.mp hone
      obtain ⟨⟨name', value'⟩, rfl⟩ := List.length_eq_one_iff.mp (hlength.symm.trans hone)
      obtain rfl := List.perm_singleton.mp hmoved.symm
      obtain rfl : name = name' := by simpa using hkeys
      have hvalue : Rearranged value value' := by simpa using hvalues
      cases hvalue with
      | refl => rfl
      | list => rfl
      | object => rfl
    · rw [caseName?_of_length hone, caseName?_of_length (hlength ▸ hone)]

theorem OrderFree.list? (h : OrderFree decode) : OrderFree (Json.list? decode) := by
  intro j j' hj
  cases hj with
  | refl => rfl
  | object => rfl
  | list hitems =>
    show List.mapM decode _ = List.mapM decode _
    induction hitems with
    | nil => rfl
    | cons hitem _ ih => rw [List.mapM_cons, List.mapM_cons, h hitem, ih]

theorem OrderFree.orNull? (h : OrderFree decode) : OrderFree (Json.orNull? decode) := by
  intro j j' hj
  cases hj with
  | refl => rfl
  | list hitems => exact congrArg (Option.map some) (h (.list hitems))
  | object hmoved hkeys hvalues =>
    exact congrArg (Option.map some) (h (.object hmoved hkeys hvalues))

end single

/-! ## Fields

What a reader of records sees of an object: for each field, whether it was found and what stands in
it. The order shows in none of this. -/

namespace Fields

/-- Both give the same answer for every field, up to the order of members in it. An object and a
list of fields are never alike: a field that is left out is taken differently in the two. -/
structure Alike (f f' : Fields α) : Prop where
  kind : (∃ members members', f = .named members ∧ f' = .named members') ∨
    ∃ items items', f = .listed items ∧ f' = .listed items'
  found : ∀ place name,
    Option.Rel (Option.Rel Rearranged) (f.find? place name) (f'.find? place name)

namespace Alike

variable {f f' : Fields α} {decode : Json α → Option β}
  (h : f.Alike f') (hdecode : OrderFree decode)

include h hdecode

theorem required (place : Nat) (name : String) :
    f.required place name decode = f'.required place name decode := by
  unfold Fields.required
  have hfound := h.found place name
  generalize f.find? place name = found at hfound ⊢
  generalize f'.find? place name = found' at hfound ⊢
  rcases hfound with ⟨⟨hj⟩ | _⟩ | _
  · exact hdecode hj
  · rfl
  · rfl

theorem withDefault (place : Nat) (name : String) (value : β) :
    f.withDefault place name decode value = f'.withDefault place name decode value := by
  unfold Fields.withDefault
  have hfound := h.found place name
  generalize f.find? place name = found at hfound ⊢
  generalize f'.find? place name = found' at hfound ⊢
  rcases hfound with ⟨⟨hj⟩ | _⟩ | _
  · exact hdecode hj
  · rfl
  · rfl

theorem optional (place : Nat) (name : String) :
    f.optional place name decode = f'.optional place name decode := by
  rcases h.kind with ⟨members, members', rfl, rfl⟩ | ⟨items, items', rfl, rfl⟩
  · exact h.withDefault hdecode.orNull? place name none
  · exact h.required hdecode.orNull? place name

end Alike

/-- What was found under a name, from the members of that name. A name that occurs twice is a fault
of its own, which no order of the members hides. -/
def only? : List (String × Json α) → Option (Option (Json α))
  | [] => some none
  | [m] => some (some m.2)
  | _ => none

theorem find?_named (members : List (String × Json α)) (place : Nat) (name : String) :
    (named members).find? place name = only? (members.filter (·.1 == name)) := by
  unfold find? only?
  rfl

theorem only?_perm {members moved : List (String × Json α)} (h : members.Perm moved) :
    only? members = only? moved := by
  match members, moved, h.length_eq with
  | [], [], _ => rfl
  | [m], [m'], _ => rw [List.perm_singleton.mp h]
  | _ :: _ :: _, _ :: _ :: _, _ => rfl

/-- The members have the same keys, and their values differ in order only. The keys stand in one
order here; moving them is a step of its own. -/
def SameMembers : List (String × Json α) → List (String × Json α) → Prop :=
  List.Forall₂ fun m m' => m.1 = m'.1 ∧ Rearranged m.2 m'.2

theorem only?_sameMembers {members members' : List (String × Json α)}
    (h : SameMembers members members') :
    Option.Rel (Option.Rel Rearranged) (only? members) (only? members') := by
  rcases h with _ | ⟨hm, _ | ⟨hm', _⟩⟩
  · exact .some .none
  · exact .some (.some hm.2)
  · exact .none

theorem sameMembers_of_map {moved members : List (String × Json α)}
    (hkeys : moved.map Prod.fst = members.map Prod.fst)
    (hvalues : List.Forall₂ Rearranged (moved.map Prod.snd) (members.map Prod.snd)) :
    SameMembers moved members := by
  induction moved generalizing members with
  | nil =>
    cases members with
    | nil => exact .nil
    | cons m rest => cases hkeys
  | cons m rest ih =>
    cases members with
    | nil => cases hkeys
    | cons m' rest' =>
      obtain ⟨hkey, hkeys⟩ := List.cons.inj hkeys
      obtain ⟨hvalue, hvalues⟩ := List.forall₂_cons.mp hvalues
      exact .cons ⟨hkey, hvalue⟩ (ih hkeys hvalues)

theorem SameMembers.filter {members members' : List (String × Json α)}
    (h : SameMembers members members') (name : String) :
    SameMembers (members.filter (·.1 == name)) (members'.filter (·.1 == name)) := by
  refine List.rel_filter ?_ h
  rintro m m' ⟨hkey, -⟩
  show (m.1 == name) = true ↔ (m'.1 == name) = true
  rw [hkey]

theorem alike_named {members moved members' : List (String × Json α)} (hmoved : members.Perm moved)
    (hkeys : moved.map Prod.fst = members'.map Prod.fst)
    (hvalues : List.Forall₂ Rearranged (moved.map Prod.snd) (members'.map Prod.snd)) :
    (named members).Alike (named members') where
  kind := .inl ⟨members, members', rfl, rfl⟩
  found := by
    intro place name
    rw [find?_named, find?_named, only?_perm (hmoved.filter _)]
    exact only?_sameMembers ((sameMembers_of_map hkeys hvalues).filter name)

theorem alike_listed {items items' : List (Json α)}
    (hitems : List.Forall₂ Rearranged items items') : (listed items).Alike (listed items') where
  kind := .inr ⟨items, items', rfl, rfl⟩
  found := by
    intro place name
    refine .some ?_
    induction hitems generalizing place with
    | nil => exact .none
    | cons hitem _ ih =>
      cases place with
      | zero => exact .some hitem
      | succ place => exact ih place

end Fields

/-- **A record is read without regard to order** if its fields are. -/
theorem OrderFree.ofFields {count : Nat} {read : Fields α → Option β}
    (hread : ∀ f f' : Fields α, f.Alike f' → read f = read f') :
    OrderFree fun j => (fields? count j).bind read := by
  intro j j' hj
  cases hj with
  | refl => rfl
  | object hmoved hkeys hvalues => exact hread _ _ (Fields.alike_named hmoved hkeys hvalues)
  | @list items items' hitems =>
    have hfields : ∀ items : List (Json α), fields? count (.list items) =
        if items.length ≤ count then some (.listed items) else none := fun _ => rfl
    simp only [hfields, hitems.length_eq]
    split
    · exact hread _ _ (Fields.alike_listed hitems)
    · rfl

end Json

/-! ## Records

One line each: what the reader of the record does is named, and the lemma for it is used. -/

section records

open Json (OrderFree)

variable {α : Type}

theorem Quality.orderFree_ofJson? : OrderFree (Quality.ofJson? (α := α)) :=
  Json.orderFree_caseName?.bind _

theorem Action.orderFree_ofJson? : OrderFree (Action.ofJson? (α := α)) :=
  Json.orderFree_caseName?.bind _

theorem Side.orderFree_ofJson? : OrderFree (Side.ofJson? (α := α)) :=
  Json.orderFree_caseName?.bind _

theorem Signal.orderFree_ofJson? : OrderFree (Signal.ofJson? (α := α)) := by
  refine OrderFree.ofFields ?_
  intro f f' h
  simp only [h.required Json.orderFree_int64?, h.required Action.orderFree_ofJson?]

variable [Scalar α]

theorem Bar.orderFree_ofJson? : OrderFree (Bar.ofJson? (α := α)) := by
  refine OrderFree.ofFields ?_
  intro f f' h
  simp only [h.required Json.orderFree_int64?, h.required Json.orderFree_scalar?,
    h.withDefault Json.orderFree_scalar?, h.withDefault Json.orderFree_nat64?,
    h.withDefault Quality.orderFree_ofJson?]

theorem Position.orderFree_ofJson? : OrderFree (Position.ofJson? (α := α)) := by
  refine OrderFree.ofFields ?_
  intro f f' h
  simp only [h.required Json.orderFree_int64?, h.required Json.orderFree_scalar?]

theorem Trade.orderFree_ofJson? : OrderFree (Trade.ofJson? (α := α)) := by
  refine OrderFree.ofFields ?_
  intro f f' h
  simp only [h.required Json.orderFree_int64?, h.required Json.orderFree_scalar?,
    h.required Side.orderFree_ofJson?, h.optional Json.orderFree_int64?,
    h.optional Json.orderFree_scalar?]

theorem EquityPoint.orderFree_ofJson? : OrderFree (EquityPoint.ofJson? (α := α)) := by
  refine OrderFree.ofFields ?_
  intro f f' h
  simp only [h.required Json.orderFree_int64?, h.required Json.orderFree_scalar?]

theorem Metrics.orderFree_ofJson? : OrderFree (Metrics.ofJson? (α := α)) := by
  refine OrderFree.ofFields ?_
  intro f f' h
  simp only [h.required Json.orderFree_scalar?, h.required Json.orderFree_nat32?]

theorem RunRecord.orderFree_ofJson? : OrderFree (RunRecord.ofJson? (α := α)) := by
  refine OrderFree.ofFields ?_
  intro f f' h
  simp only [h.required Json.orderFree_scalar?, h.required Json.orderFree_nat32?,
    h.required Json.orderFree_nat64?, h.required Json.orderFree_bool?,
    h.required Json.orderFree_int64?.list?, h.required Trade.orderFree_ofJson?.list?,
    h.required EquityPoint.orderFree_ofJson?.list?]

theorem CrossSettings.orderFree_ofJson? : OrderFree (CrossSettings.ofJson? (α := α)) := by
  refine OrderFree.ofFields ?_
  intro f f' h
  simp only [h.required Json.orderFree_nat64?, h.required Json.orderFree_scalar?]

theorem ReversionSettings.orderFree_ofJson? : OrderFree (ReversionSettings.ofJson? (α := α)) := by
  refine OrderFree.ofFields ?_
  intro f f' h
  simp only [h.required Json.orderFree_nat64?, h.required Json.orderFree_scalar?]

theorem AccountSettings.orderFree_ofJson? : OrderFree (AccountSettings.ofJson? (α := α)) := by
  refine OrderFree.ofFields ?_
  intro f f' h
  simp only [h.required Json.orderFree_scalar?]

theorem CleaningSettings.orderFree_ofJson? : OrderFree (CleaningSettings.ofJson? (α := α)) := by
  refine OrderFree.ofFields ?_
  intro f f' h
  simp only [h.required Json.orderFree_nat64?, h.required Json.orderFree_scalar?,
    h.optional Json.orderFree_int64?]

end records

end MarketReplay
