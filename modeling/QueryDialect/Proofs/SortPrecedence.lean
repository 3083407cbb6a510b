import QueryDialect.Proofs.OrderEntries
import QueryDialect.Proofs.SharedConversion
import QueryDialect.Proofs.SourceGrammar
import QueryDialect.Proofs.SurvivingScopes

namespace QueryDialect

open Checked (Accepts)

theorem accepts_orderEntry : Accepts orderEntry OrderRequest :=
  fun _ _ => orderEntry_eq_ok_iff

section Lists

variable {order order' : List String} {requests requests' entries : List (String × Direction)}

theorem orderByOf_eq_ok_iff :
    orderByOf order = .ok entries ↔
      ∃ requests, List.Forall₂ OrderRequest order requests ∧ Keyed.ofList requests = entries := by
  rw [orderByOf, Checked.map_eq_ok_iff]
  exact exists_congr fun requests => and_congr_left' (accepts_orderEntry.each _ order requests)

theorem orderByOf_of_requests (hr : List.Forall₂ OrderRequest order requests) :
    orderByOf order = .ok (Keyed.ofList requests) :=
  orderByOf_eq_ok_iff.mpr ⟨requests, hr, rfl⟩

theorem orderByOf_eq_ok_iff_perm (hr : List.Forall₂ OrderRequest order requests)
    (hd : Keyed.Distinct requests) :
    orderByOf order = .ok entries ↔ entries.Perm requests ∧ Keyed.Sorted entries := by
  rw [orderByOf_of_requests hr, Except.ok.injEq]
  exact Keyed.ofList_eq_iff hd

theorem orderByOf_eq_iff_perm (hr : List.Forall₂ OrderRequest order requests)
    (hr' : List.Forall₂ OrderRequest order' requests') (hd : Keyed.Distinct requests)
    (hd' : Keyed.Distinct requests') :
    orderByOf order = orderByOf order' ↔ requests.Perm requests' := by
  have hp : (Keyed.ofList requests').Perm requests' := Keyed.ofList_perm hd'
  rw [orderByOf_of_requests hr', orderByOf_eq_ok_iff_perm hr hd]
  constructor
  · intro h
    exact h.1.symm.trans hp
  · intro h
    exact ⟨hp.trans h.symm, Keyed.sorted_ofList requests'⟩

end Lists

/-- The object lists these fields to order by under `orderBy`, in this order. -/
def Json.ListsOrderBy (json : Json) (entries : List (String × Direction)) : Prop :=
  ∃ members, json = .object members ∧
    Keyed.get? "orderBy" members =
      some (.object (entries.map fun entry => (entry.1, .string entry.2.text)))

theorem Query.listsOrderBy_toJsonWith {arrange : List (String × Json) → List (String × Json)}
    (ha : Rearranges arrange) {query : Query} {entries : Keyed Direction}
    (h : query.orderBy = some entries) : (query.toJsonWith arrange).ListsOrderBy entries := by
  obtain ⟨members, hq, hw⟩ := query.exists_writtenIn ha
  have ho := hw.orderBy
  rw [h] at ho
  exact ⟨members, hq, ho⟩

/-- At the end of a path, a query and both forms of its JSON order by these fields, in this order. -/
structure Query.OrdersBy (query : Query) (path : List String) (entries : Keyed Direction) :
    Prop where
  held : ∃ inner, query.Holds path inner ∧ inner.orderBy = some entries
  written : ∃ inner, query.toJson.Includes path inner ∧ inner.ListsOrderBy entries
  declared : ∃ inner, query.toJsonAsDeclared.Includes path inner ∧ inner.ListsOrderBy entries

theorem Query.OrdersBy.of_holds {query inner : Query} {path : List String}
    {entries : Keyed Direction} (hh : query.Holds path inner) (ho : inner.orderBy = some entries) :
    query.OrdersBy path entries where
  held := ⟨inner, hh, ho⟩
  written := ⟨_, hh.includes rearranges_ofList, listsOrderBy_toJsonWith rearranges_ofList ho⟩
  declared := ⟨_, hh.includes rearranges_id, listsOrderBy_toJsonWith rearranges_id ho⟩

theorem Query.ordersBy_of_survives {limit : Nat} {filter part : Filter} {query : Query}
    {path : List String} {order : List String} {requests : List (String × Direction)}
    (h : filter.toQuery limit = .ok query) (hs : filter.Survives path part)
    (ho : part.order = some order) (hr : List.Forall₂ OrderRequest order requests) :
    query.OrdersBy path (Keyed.ofList requests) := by
  obtain ⟨inner, below, hh, hi⟩ := Filter.exists_query_of_survives h hs
  have hb : part.order.mapM orderByOf = .ok inner.orderBy := Filter.orderBy_of_toQuery hi
  rw [ho] at hb
  obtain ⟨entries, he, hb⟩ := Checked.bind_eq_ok_iff.mp hb
  rw [orderByOf_of_requests hr] at he
  cases he
  exact .of_holds hh (Except.ok.inj hb).symm

/-- An accepted list of different fields comes back in order of their names, on any level, so that
lists with the same requests cannot be told apart. -/
theorem order_requests_come_back_by_name (order : List String) :
    ((∃ entries, orderByOf order = .ok entries) ↔
      ∃ requests, List.Forall₂ OrderRequest order requests) ∧
    ∀ requests, List.Forall₂ OrderRequest order requests → Keyed.Distinct requests →
      (∀ entries, orderByOf order = .ok entries ↔
        entries.Perm requests ∧ Keyed.Sorted entries) ∧
      (∀ order' requests', List.Forall₂ OrderRequest order' requests' →
        Keyed.Distinct requests' → (orderByOf order = orderByOf order' ↔ requests.Perm requests')) ∧
      ∀ (options : Options) (filter part : Filter) (query : Query) (path : List String),
        (filter.convert options).1 = .ok query → filter.Survives path part →
        part.order = some order →
        ∃ entries, query.OrdersBy path entries ∧ entries.Perm requests ∧ Keyed.Sorted entries := by
  constructor
  · constructor
    · rintro ⟨entries, h⟩
      obtain ⟨requests, hr, -⟩ := orderByOf_eq_ok_iff.mp h
      exact ⟨requests, hr⟩
    · rintro ⟨requests, hr⟩
      exact ⟨_, orderByOf_of_requests hr⟩
  intro requests hr hd
  refine ⟨fun entries => orderByOf_eq_ok_iff_perm hr hd,
    fun order' requests' hr' hd' => orderByOf_eq_iff_perm hr hr' hd hd', ?_⟩
  intro options filter part query path hq hs ho
  have hb : query.OrdersBy path (Keyed.ofList requests) :=
    Query.ordersBy_of_survives (Filter.convert_eq_ok_iff.mp hq) hs ho hr
  exact ⟨_, hb, Keyed.ofList_perm hd, Keyed.sorted_ofList requests⟩

theorem scoped_order_comes_back_by_name :
    let order := ["name DESC", "age"]
    let requests := [("name", Direction.descending), ("age", .ascending)]
    let scope : Filter := { order := some order }
    let filter : Filter := { inclusions := some [.relation "orders", .scoped "orders" scope] }
    let converted : Query := { orderBy := some [("age", .ascending), ("name", .descending)] }
    let query : Query := { projection := some (.relations [("orders", .scoped converted)]) }
    List.Forall₂ OrderRequest order requests ∧ Keyed.Distinct requests ∧
      (filter.convert { maxDepth := 1, exclusive := true }).1 = .ok query ∧
      filter.Survives ["orders"] scope ∧
      ∃ entries, query.OrdersBy ["orders"] entries ∧ entries.Perm requests ∧
        Keyed.Sorted entries := by
  intro order requests scope filter converted query
  have hr : List.Forall₂ OrderRequest order requests := (accepts_orderEntry.mapM _ _).mp rfl
  have hd : Keyed.Distinct requests := by decide
  have hq : (filter.convert { maxDepth := 1, exclusive := true }).1 = .ok query := by
    simp only [filter, scope, order, query, converted]
    rfl
  have hs : filter.Survives ["orders"] scope :=
    @Filter.Survives.scope _ _ _ _ _ [.relation "orders"] [] rfl nofun (.root scope)
  exact ⟨hr, hd, hq, hs,
    ((order_requests_come_back_by_name order).2 requests hr hd).2.2 _ filter scope query _ hq hs rfl⟩

/-- To order by name first and by age second is not to order by age first and by name second. -/
theorem orders_that_differ_come_back_alike :
    List.Forall₂ OrderRequest ["name", "age"] [("name", .ascending), ("age", .ascending)] ∧
      List.Forall₂ OrderRequest ["age", "name"] [("age", .ascending), ("name", .ascending)] ∧
      Keyed.Distinct [("name", Direction.ascending), ("age", .ascending)] ∧
      orderByOf ["name", "age"] = .ok [("age", .ascending), ("name", .ascending)] ∧
      orderByOf ["name", "age"] ≠ .ok [("name", .ascending), ("age", .ascending)] ∧
      orderByOf ["name", "age"] = orderByOf ["age", "name"] := by
  have by_name := (accepts_orderEntry.mapM ["name", "age"] _).mp rfl
  have by_age := (accepts_orderEntry.mapM ["age", "name"] _).mp rfl
  have held : orderByOf ["name", "age"] = .ok [("age", .ascending), ("name", .ascending)] := rfl
  have alike : orderByOf ["name", "age"] = orderByOf ["age", "name"] :=
    (orderByOf_eq_iff_perm by_name by_age (by decide) (by decide)).mpr (.swap ..)
  refine ⟨by_name, by_age, by decide, held, ?_, alike⟩
  rw [held, Ne, Except.ok.injEq]
  decide

end QueryDialect
