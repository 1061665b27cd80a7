import WoodFiredTasks.Cli.MigrateIdentities
import Mathlib.Order.Bounds.Defs

set_option autoImplicit false

/-! # What the identity backfill writes

The plan is made from the groups of the three columns before anything is written, and two of the
columns lie in one table. A statement sets a foreign key and nothing else, so the groups of the
columns that follow are still those of the plan, every update changes the rows that the plan
counted, and what is left without a key afterwards is what no user was found for. -/

namespace WoodFiredTasks.MigrateIdentities

/-! ## The user of a text -/

/-- The user has this e-mail address, up to the case of its letters. -/
def User.HasEmail (u : User) (value : String) : Prop :=
  ∃ email, u.email = some email ∧ lower email = lower value

/-- The ids of the users with a property. -/
def idsWhere (users : List User) (p : User → Prop) : Set Nat :=
  {id | ∃ u ∈ users, p u ∧ u.id = id}

/-- The texts of the rows of a column without a foreign key. -/
def IsPending (s : Store) (c : IdentityColumn) (value : String) : Prop :=
  ∃ row ∈ s.rows c, c.column.pending row = some value

namespace Resolver

variable (r : Resolver) (value : String)

/-- The alias map has no entry for the text. -/
def Unaliased : Prop := ∀ aliasMap, r.aliasMap = some aliasMap → aliasMap.lookup value = none

/-- The text is the e-mail address of a user. -/
def IsEmail : Prop := '@' ∈ value.toList ∧ ∃ u ∈ r.users, u.HasEmail value

/-- The text is the display name of a user. -/
def IsName : Prop := value ≠ "" ∧ ∃ u ∈ r.users, u.displayName = value

/-- What a text is resolved to, in the order of the priorities: the user of the alias map, the first
    user with the e-mail address, a user with the display name, and then, by the strategy, the first
    legacy user or nobody. -/
inductive Assigned : Option Nat → Prop
  | aliasMap {aliasMap : AliasMap} {id : Nat} (hmap : r.aliasMap = some aliasMap)
      (hlookup : aliasMap.lookup value = some id) : Assigned (some id)
  | email {id : Nat} (hunaliased : r.Unaliased value) (hat : '@' ∈ value.toList)
      (hleast : IsLeast (idsWhere r.users fun u => u.HasEmail value) id) : Assigned (some id)
  | displayName {u : User} (hunaliased : r.Unaliased value) (hemail : ¬r.IsEmail value)
      (hne : value ≠ "") (hmem : u ∈ r.users) (hname : u.displayName = value) :
      Assigned (some u.id)
  | legacy {id : Nat} (hunaliased : r.Unaliased value) (hemail : ¬r.IsEmail value)
      (hname : ¬r.IsName value) (hstrategy : r.strategy = .legacy)
      (hleast : IsLeast (idsWhere r.users fun u => u.isLegacy = true) id) : Assigned (some id)
  | skipped (hunaliased : r.Unaliased value) (hemail : ¬r.IsEmail value)
      (hname : ¬r.IsName value) (hstrategy : r.strategy = .skip) : Assigned none

end Resolver

/-! ## Resolving -/

theorem lowestId_eq_some {users : List User} {p : User → Bool} {q : User → Prop}
    (hpq : ∀ u, p u = true ↔ q u) {id : Nat} (h : lowestId users p = some id) :
    IsLeast (idsWhere users q) id := by
  obtain ⟨hmem, hle⟩ := List.min?_eq_some_iff.1 h
  have hids : ∀ n, n ∈ (users.filter p).map User.id ↔ n ∈ idsWhere users q := by
    intro n
    simp only [List.mem_map, List.mem_filter, idsWhere, Set.mem_ofPred_eq, hpq, and_assoc]
  exact ⟨(hids id).1 hmem, fun n hn => hle n ((hids n).2 hn)⟩

theorem lowestId_eq_none {users : List User} {p : User → Bool} {q : User → Prop}
    (hpq : ∀ u, p u = true ↔ q u) (h : lowestId users p = none) :
    ∀ u ∈ users, ¬q u := by
  intro u hu hq
  have hnil : (users.filter p).map User.id = [] := List.min?_eq_none_iff.1 h
  rw [List.map_eq_nil_iff, List.filter_eq_nil_iff] at hnil
  exact hnil u hu ((hpq u).2 hq)

theorem hasEmail_iff (u : User) (value : String) :
    (u.email.any fun e => lower e = lower value) = true ↔ u.HasEmail value := by
  cases hemail : u.email with
  | none => simp [User.HasEmail, hemail]
  | some email => simp [User.HasEmail, hemail]

theorem length_pos_iff (value : String) : value.length > 0 ↔ value ≠ "" := by
  rw [gt_iff_lt, Nat.pos_iff_ne_zero, Ne, String.length_eq_zero_iff]

namespace Resolver

variable {r : Resolver} {value : String}

theorem byAlias_eq_none : r.byAlias value = none ↔ r.Unaliased value := by
  rw [byAlias, Option.bind_eq_none_iff]
  exact Iff.rfl

theorem of_byEmail {id : Nat} (h : r.byEmail value = some id) :
    '@' ∈ value.toList ∧ IsLeast (idsWhere r.users fun u => u.HasEmail value) id := by
  unfold byEmail at h
  split_ifs at h with hguard
  exact ⟨hguard.2, lowestId_eq_some (fun u => hasEmail_iff u value) h⟩

theorem not_isEmail (h : r.byEmail value = none) : ¬r.IsEmail value := by
  rintro ⟨hat, u, hu, hemail⟩
  have hpos : value.length > 0 := by
    rw [length_pos_iff]
    rintro rfl
    simp at hat
  rw [byEmail, if_pos ⟨hpos, hat⟩] at h
  exact lowestId_eq_none (fun u => hasEmail_iff u value) h u hu hemail

theorem of_byDisplayName {id : Nat} (h : r.byDisplayName value = some id) :
    value ≠ "" ∧ ∃ u ∈ r.users, u.displayName = value ∧ u.id = id := by
  unfold byDisplayName at h
  split_ifs at h with hguard
  exact ⟨(length_pos_iff value).1 hguard, r.query.sound _ _ _ h⟩

theorem not_isName (h : r.byDisplayName value = none) : ¬r.IsName value := by
  rintro ⟨hne, u, hu, hname⟩
  rw [byDisplayName, if_pos ((length_pos_iff value).2 hne)] at h
  exact r.query.complete _ _ h u hu hname

/-- What a text is resolved to is what the priorities assign to it. -/
theorem assigned_of_resolveValue {userId : Option Nat} {source : Source}
    (h : r.resolveValue value = .ok (userId, source)) : r.Assigned value userId := by
  unfold resolveValue at h
  cases halias : r.byAlias value with
  | some id =>
    obtain ⟨aliasMap, hmap, hlookup⟩ := Option.bind_eq_some_iff.1 halias
    rw [halias] at h
    cases h
    exact .aliasMap hmap hlookup
  | none =>
    have hunaliased := byAlias_eq_none.1 halias
    rw [halias] at h
    cases hemail : r.byEmail value with
    | some id =>
      rw [hemail] at h
      cases h
      exact .email hunaliased (of_byEmail hemail).1 (of_byEmail hemail).2
    | none =>
      rw [hemail] at h
      cases hname : r.byDisplayName value with
      | some id =>
        obtain ⟨hne, u, hu, hdisplay, rfl⟩ := of_byDisplayName hname
        rw [hname] at h
        cases h
        exact .displayName hunaliased (not_isEmail hemail) hne hu hdisplay
      | none =>
        rw [hname] at h
        cases hstrategy : r.strategy with
        | skip =>
          rw [hstrategy] at h
          cases h
          exact .skipped hunaliased (not_isEmail hemail) (not_isName hname) hstrategy
        | legacy =>
          rw [hstrategy] at h
          cases hfallback : r.fallbackUserId with
          | none =>
            rw [hfallback] at h
            cases h
          | some id =>
            rw [hfallback] at h
            cases h
            exact .legacy hunaliased (not_isEmail hemail) (not_isName hname) hstrategy
              (lowestId_eq_some (fun u => Iff.rfl) hfallback)

/-- A text that is refused has nothing assigned. -/
theorem not_assigned_of_resolveValue {message : String}
    (h : r.resolveValue value = .error message) (userId : Option Nat) :
    ¬r.Assigned value userId := by
  intro hassigned
  unfold resolveValue at h
  cases halias : r.byAlias value with
  | some id =>
    rw [halias] at h
    cases h
  | none =>
    rw [halias] at h
    cases hemail : r.byEmail value with
    | some id =>
      rw [hemail] at h
      cases h
    | none =>
      rw [hemail] at h
      cases hname : r.byDisplayName value with
      | some id =>
        rw [hname] at h
        cases h
      | none =>
        rw [hname] at h
        cases hstrategy : r.strategy with
        | skip =>
          rw [hstrategy] at h
          cases h
        | legacy =>
          rw [hstrategy] at h
          cases hfallback : r.fallbackUserId with
          | some id =>
            rw [hfallback] at h
            cases h
          | none =>
            cases hassigned with
            | aliasMap hmap hlookup =>
              have hnone := byAlias_eq_none.1 halias _ hmap
              rw [hlookup] at hnone
              cases hnone
            | email _ hat hleast =>
              obtain ⟨u, hu, hemail', -⟩ := hleast.1
              exact not_isEmail hemail ⟨hat, u, hu, hemail'⟩
            | displayName _ _ hne hmem hdisplay =>
              exact not_isName hname ⟨hne, _, hmem, hdisplay⟩
            | legacy _ _ _ _ hleast =>
              obtain ⟨u, hu, hlegacy, -⟩ := hleast.1
              exact lowestId_eq_none (fun u => Iff.rfl) hfallback u hu hlegacy
            | skipped _ _ _ hskip =>
              rw [hstrategy] at hskip
              cases hskip

/-- The user that the code assigns to a text, if any. -/
def assign (r : Resolver) (value : String) : Option Nat :=
  match r.resolveValue value with
  | .ok (userId, _) => userId
  | .error _ => none

/-- The record of a group in the plan. -/
def mapping (r : Resolver) (group : String × Nat) : ResolvedMapping :=
  { value := group.1
    userId := r.assign group.1
    rowCount := group.2
    source :=
      match r.resolveValue group.1 with
      | .ok (_, source) => source
      | .error _ => .skipped }

/-- Some user, or nobody, is assigned to the text. -/
def IsAssigned (r : Resolver) (value : String) : Prop := ∃ userId, r.Assigned value userId

theorem resolveValue_of_isAssigned (h : r.IsAssigned value) :
    r.Assigned value (r.assign value) ∧
      r.resolveValue value = .ok (r.assign value, (r.mapping (value, 0)).source) := by
  unfold mapping assign
  cases hresolve : r.resolveValue value with
  | error message =>
    obtain ⟨userId, hassigned⟩ := h
    exact absurd hassigned (not_assigned_of_resolveValue hresolve userId)
  | ok result =>
    obtain ⟨userId, source⟩ := result
    exact ⟨assigned_of_resolveValue hresolve, rfl⟩

/-! ## The plan -/

theorem mappings_of_isAssigned {groups : List (String × Nat)}
    (h : ∀ group ∈ groups, r.IsAssigned group.1) :
    r.mappings groups = .ok (groups.map r.mapping) := by
  induction groups with
  | nil => rfl
  | cons group groups ih =>
    obtain ⟨hgroup, hgroups⟩ := List.forall_mem_cons.1 h
    rw [mappings, (resolveValue_of_isAssigned hgroup).2, ih hgroups]
    rfl

theorem mappings_error {groups : List (String × Nat)} {group : String × Nat}
    (hmem : group ∈ groups) (h : ¬r.IsAssigned group.1) :
    ∃ message, r.mappings groups = .error message := by
  induction groups with
  | nil => cases hmem
  | cons head groups ih =>
    obtain ⟨value, rowCount⟩ := head
    rw [mappings]
    cases hresolve : r.resolveValue value with
    | error message => exact ⟨message, rfl⟩
    | ok result =>
      rcases List.mem_cons.1 hmem with rfl | hlater
      · exact absurd ⟨_, assigned_of_resolveValue hresolve⟩ h
      · obtain ⟨message, hmessage⟩ := ih hlater
        exact ⟨message, by rw [hmessage]; rfl⟩

/-- The plan for a column. -/
def planFor (r : Resolver) (s : Store) (c : IdentityColumn) : List ResolvedMapping :=
  ((c.column.groups (s.rows c)).map r.mapping).insertionSort fun a b => b.rowCount ≤ a.rowCount

/-- Every text that a foreign key is to be found for has something assigned. -/
def Resolves (r : Resolver) (s : Store) : Prop :=
  ∀ c value, IsPending s c value → r.IsAssigned value

theorem isPending_of_mem_groups {s : Store} {c : IdentityColumn} {group : String × Nat}
    (h : group ∈ c.column.groups (s.rows c)) : IsPending s c group.1 :=
  FillColumn.mem_keys_groups.1 (List.mem_map_of_mem h)

theorem tablePlans_of_resolves {s : Store} (h : r.Resolves s) (cs : List IdentityColumn) :
    r.tablePlans s cs = .ok (cs.map fun c => (c, r.planFor s c)) := by
  induction cs with
  | nil => rfl
  | cons c cs ih =>
    have hgroups : ∀ group ∈ c.column.groups (s.rows c), r.IsAssigned group.1 :=
      fun group hgroup => h c group.1 (isPending_of_mem_groups hgroup)
    rw [tablePlans, buildPlanForTable, mappings_of_isAssigned hgroups, ih]
    rfl

theorem tablePlans_error {s : Store} {c : IdentityColumn} {value : String}
    (hpending : IsPending s c value) (h : ¬r.IsAssigned value) {cs : List IdentityColumn}
    (hmem : c ∈ cs) : ∃ message, r.tablePlans s cs = .error message := by
  induction cs with
  | nil => cases hmem
  | cons c' cs ih =>
    rw [tablePlans]
    cases hplan : r.buildPlanForTable s c' with
    | error message => exact ⟨message, rfl⟩
    | ok mappings =>
      rcases List.mem_cons.1 hmem with rfl | hlater
      · obtain ⟨group, hgroup, rfl⟩ := List.mem_map.1 (FillColumn.mem_keys_groups.2 hpending)
        obtain ⟨message, hmessage⟩ := mappings_error hgroup h
        rw [buildPlanForTable, hmessage] at hplan
        cases hplan
      · obtain ⟨message, hmessage⟩ := ih hlater
        exact ⟨message, by rw [hmessage]; rfl⟩

/-! ## The updates of a column -/

theorem planFor_perm (r : Resolver) (s : Store) (c : IdentityColumn) :
    (r.planFor s c).Perm ((c.column.groups (s.rows c)).map r.mapping) :=
  List.perm_insertionSort _ _

theorem planFor_congr {s s' : Store} {c : IdentityColumn}
    (h : c.column.groups (s'.rows c) = c.column.groups (s.rows c)) :
    r.planFor s' c = r.planFor s c := by
  rw [planFor, planFor, h]

theorem of_mem_planFor {s : Store} {c : IdentityColumn} {m : ResolvedMapping}
    (h : m ∈ r.planFor s c) :
    m.userId = r.assign m.value ∧ m.rowCount = (s.rows c).countP (c.column.isIn m.value) := by
  obtain ⟨group, hgroup, rfl⟩ := List.mem_map.1 ((r.planFor_perm s c).mem_iff.1 h)
  exact ⟨rfl, FillColumn.count_of_mem_groups hgroup⟩

theorem values_planFor_perm (r : Resolver) (s : Store) (c : IdentityColumn) :
    ((r.planFor s c).map ResolvedMapping.value).Perm
      ((c.column.groups (s.rows c)).map Prod.fst) := by
  have hperm := (r.planFor_perm s c).map ResolvedMapping.value
  rwa [List.map_map] at hperm

theorem nodup_values_planFor (r : Resolver) (s : Store) (c : IdentityColumn) :
    ((r.planFor s c).map ResolvedMapping.value).Nodup :=
  (r.values_planFor_perm s c).nodup_iff.2 (FillColumn.nodup_keys_groups _)

theorem mem_values_planFor {s : Store} {c : IdentityColumn} :
    value ∈ (r.planFor s c).map ResolvedMapping.value ↔ IsPending s c value :=
  (r.values_planFor_perm s c).mem_iff.trans FillColumn.mem_keys_groups

/-- The plan counts the rows whose text has a user assigned. -/
theorem plannedRows_planFor (r : Resolver) (s : Store) (c : IdentityColumn) :
    plannedRows (r.planFor s c) =
      (s.rows c).countP fun row => ((c.column.pending row).bind r.assign).isSome := by
  rw [← FillColumn.sum_groups]
  have hperm := (((r.planFor_perm s c).filter fun m => m.userId.isSome).map
    ResolvedMapping.rowCount).sum_eq
  rw [List.filter_map, List.map_map] at hperm
  exact hperm

theorem keys_toApply_sublist (mappings : List ResolvedMapping) :
    ((toApply mappings).map Prod.fst).Sublist (mappings.map ResolvedMapping.value) := by
  induction mappings with
  | nil => exact List.Sublist.refl _
  | cons m mappings ih =>
    cases huser : m.userId with
    | none =>
      rw [toApply, List.filterMap_cons_none (by rw [huser]; rfl)]
      exact ih.cons _
    | some user =>
      rw [toApply, List.filterMap_cons_some (by rw [huser]; rfl)]
      exact ih.cons_cons _

theorem lookup_toApply {mappings : List ResolvedMapping}
    (hnodup : (mappings.map ResolvedMapping.value).Nodup) {m : ResolvedMapping}
    (hm : m ∈ mappings) : (toApply mappings).lookup m.value = m.userId := by
  induction mappings with
  | nil => cases hm
  | cons head mappings ih =>
    obtain ⟨hhead, hnodup⟩ := List.nodup_cons.1 hnodup
    rcases List.mem_cons.1 hm with rfl | hlater
    · cases huser : m.userId with
      | none =>
        rw [toApply, List.filterMap_cons_none (by rw [huser]; rfl)]
        have hnot : m.value ∉ (toApply mappings).map Prod.fst := fun h =>
          hhead ((keys_toApply_sublist mappings).subset h)
        refine List.lookup_eq_none_iff.2 fun p hp => ?_
        rw [bne_iff_ne]
        rintro heq
        exact hnot (heq ▸ List.mem_map_of_mem hp)
      | some user =>
        rw [toApply, List.filterMap_cons_some (by rw [huser]; rfl)]
        exact List.lookup_cons_self
    · have hne : m.value ≠ head.value := fun heq =>
        hhead (heq ▸ List.mem_map_of_mem hlater)
      cases huser : head.userId with
      | none =>
        rw [toApply, List.filterMap_cons_none (by rw [huser]; rfl)]
        exact ih hnodup hlater
      | some user =>
        rw [toApply, List.filterMap_cons_some (by rw [huser]; rfl), List.lookup_cons,
          beq_eq_false_iff_ne.2 hne]
        exact ih hnodup hlater

/-- Each update changes what its group has in the rows at the start. -/
theorem updateRows_eq {users : List User} {c : IdentityColumn} {pairs : List (String × Nat)}
    (hnodup : (pairs.map Prod.fst).Nodup) (husers : ∀ p ∈ pairs, p.2 ∈ users.map User.id)
    (rows : List c.Row) :
    updateRows users c pairs rows =
      .ok (c.column.fill (fun value => pairs.lookup value) rows,
        (pairs.map fun p => rows.countP (c.column.isIn p.1)).sum) := by
  rw [← FillColumn.foldl_fillOne]
  induction pairs generalizing rows with
  | nil => rfl
  | cons p pairs ih =>
    obtain ⟨hfresh, hnodup⟩ := List.nodup_cons.1 hnodup
    obtain ⟨huser, husers⟩ := List.forall_mem_cons.1 husers
    have hstatement : updateStatement users c p.1 p.2 rows =
        .ok (c.column.fillOne p.1 p.2 rows, rows.countP (c.column.isIn p.1)) :=
      if_neg fun h => h.2 huser
    have hcounts : (pairs.map fun q =>
        (c.column.fillOne p.1 p.2 rows).countP (c.column.isIn q.1)) =
        pairs.map fun q => rows.countP (c.column.isIn q.1) := by
      refine List.map_congr_left fun q hq => ?_
      refine FillColumn.countP_fillOne ?_ p.2 rows
      rintro heq
      exact hfresh (heq ▸ List.mem_map_of_mem hq)
    rw [updateRows, hstatement]
    show (updateRows users c pairs _).map _ = _
    rw [ih hnodup husers, hcounts]
    rfl

theorem sum_toApply {mappings : List ResolvedMapping} {f : String → Nat}
    (h : ∀ m ∈ mappings, m.rowCount = f m.value) :
    ((toApply mappings).map fun p => f p.1).sum = plannedRows mappings := by
  induction mappings with
  | nil => rfl
  | cons m mappings ih =>
    obtain ⟨hm, hmappings⟩ := List.forall_mem_cons.1 h
    unfold toApply plannedRows at ih ⊢
    cases huser : m.userId with
    | none =>
      rw [List.filterMap_cons_none (by rw [huser]; rfl), ih hmappings,
        List.filter_cons_of_neg (by simp [huser])]
    | some user =>
      rw [List.filterMap_cons_some (by rw [huser]; rfl), List.filter_cons_of_pos (by simp [huser]),
        List.map_cons, List.map_cons, List.sum_cons, List.sum_cons, ih hmappings, hm]

/-- Every id in the alias map is that of a user. -/
def AliasesExist (r : Resolver) : Prop :=
  ∀ aliasMap, r.aliasMap = some aliasMap → ∀ p ∈ aliasMap, p.2 ∈ r.users.map User.id

theorem mem_users_of_assigned (haliases : r.AliasesExist) {id : Nat}
    (h : r.Assigned value (some id)) : id ∈ r.users.map User.id := by
  have hids : ∀ {p : User → Prop}, id ∈ idsWhere r.users p → id ∈ r.users.map User.id := by
    rintro p ⟨u, hu, -, rfl⟩
    exact List.mem_map_of_mem hu
  cases h with
  | aliasMap hmap hlookup =>
    obtain ⟨before, after, hsplit, -⟩ := List.lookup_eq_some_iff.1 hlookup
    exact haliases _ hmap (value, id) (by simp [hsplit])
  | email _ _ hleast => exact hids hleast.1
  | displayName _ _ _ hmem _ => exact List.mem_map_of_mem hmem
  | legacy _ _ _ _ hleast => exact hids hleast.1

/-- The transaction of a column fills the rows with the users assigned to their texts, and changes
    as many as the plan counted. -/
theorem applyMappings_planFor {s : Store} {c : IdentityColumn}
    (h : ∀ value, IsPending s c value → r.IsAssigned value) (haliases : r.AliasesExist)
    (husers : s.users = r.users) :
    applyMappings s c (r.planFor s c) =
      .ok (s.setRows c (c.column.fill r.assign (s.rows c)), plannedRows (r.planFor s c)) := by
  have hnodup := r.nodup_values_planFor s c
  have hassign : ∀ row ∈ s.rows c, ∀ value, c.column.pending row = some value →
      (toApply (r.planFor s c)).lookup value = r.assign value := by
    intro row hrow value hpending
    obtain ⟨m, hm, rfl⟩ := List.mem_map.1 (mem_values_planFor.2 ⟨row, hrow, hpending⟩)
    rw [lookup_toApply hnodup hm]
    exact (of_mem_planFor hm).1
  have hfill : c.column.fill (fun value => (toApply (r.planFor s c)).lookup value) (s.rows c) =
      c.column.fill r.assign (s.rows c) := FillColumn.fill_congr hassign
  have hsum : ((toApply (r.planFor s c)).map fun p =>
      (s.rows c).countP (c.column.isIn p.1)).sum = plannedRows (r.planFor s c) :=
    sum_toApply (f := fun value => (s.rows c).countP (c.column.isIn value)) fun m hm =>
      (of_mem_planFor hm).2
  unfold applyMappings
  by_cases hnil : toApply (r.planFor s c) = []
  · rw [hnil] at hfill hsum
    have hkept : c.column.fill r.assign (s.rows c) = s.rows c :=
      hfill.symm.trans (FillColumn.fill_none _)
    rw [if_pos hnil, hkept, ← hsum]
    cases c <;> rfl
  · have hids : ∀ p ∈ toApply (r.planFor s c), p.2 ∈ s.users.map User.id := by
      intro p hp
      obtain ⟨m, hm, hpair⟩ := List.mem_filterMap.1 hp
      obtain ⟨user, huser, rfl⟩ := Option.map_eq_some_iff.1 hpair
      have hpending := mem_values_planFor.1 (List.mem_map_of_mem hm)
      have hassigned := (resolveValue_of_isAssigned (h m.value hpending)).1
      rw [← (of_mem_planFor hm).1, huser] at hassigned
      rw [husers]
      exact mem_users_of_assigned haliases hassigned
    rw [if_neg hnil, updateRows_eq ((keys_toApply_sublist _).nodup hnodup) hids, hfill, hsum]
    rfl

end Resolver

/-! ## All columns -/

/-- The task with the keys that are found for its texts. -/
def Task.backfilled (assign : String → Option Nat) (t : Task) : Task :=
  { t with
    createdByUserId := t.createdByUserId <|> assign t.createdBy
    assigneeUserId := t.assigneeUserId <|> t.assignee.bind assign }

/-- The comment with the key that is found for its author. -/
def Comment.backfilled (assign : String → Option Nat) (comment : Comment) : Comment :=
  { comment with authorUserId := comment.authorUserId <|> assign comment.author }

/-- The tables with the keys that are found; what has a key already keeps it. -/
def Store.backfilled (assign : String → Option Nat) (s : Store) : Store :=
  { s with
    tasks := s.tasks.map (Task.backfilled assign)
    comments := s.comments.map (Comment.backfilled assign) }

/-- Filling the rows of the three columns in turn. -/
theorem backfilled_eq (assign : String → Option Nat) (s : Store) :
    let s₁ := s.setRows .createdBy (IdentityColumn.createdBy.column.fill assign (s.rows .createdBy))
    let s₂ := s₁.setRows .assignee (IdentityColumn.assignee.column.fill assign (s₁.rows .assignee))
    s₂.setRows .author (IdentityColumn.author.column.fill assign (s₂.rows .author)) =
      s.backfilled assign := by
  have htasks : (s.tasks.map (IdentityColumn.createdBy.column.fillRow assign)).map
      (IdentityColumn.assignee.column.fillRow assign) = s.tasks.map (Task.backfilled assign) := by
    rw [List.map_map]
    refine List.map_congr_left fun t _ => ?_
    rw [Function.comp_apply, FillColumn.fillRow_eq, FillColumn.fillRow_eq]
    rfl
  have hcomments : s.comments.map (IdentityColumn.author.column.fillRow assign) =
      s.comments.map (Comment.backfilled assign) := by
    refine List.map_congr_left fun comment _ => ?_
    rw [FillColumn.fillRow_eq]
    rfl
  rw [Store.backfilled, ← htasks, ← hcomments]
  rfl

/-- The keys found for the authors of tasks leave the groups of the assignees as they are. -/
theorem groups_assignee (assign : String → Option Nat) (rows : List Task) :
    IdentityColumn.assignee.column.groups (IdentityColumn.createdBy.column.fill assign rows) =
      IdentityColumn.assignee.column.groups rows := by
  refine FillColumn.groups_map ?_ ?_ rows
  · intro t
    rw [FillColumn.fillRow_eq]
    rfl
  · intro t
    rw [FillColumn.fillRow_eq]
    rfl

namespace Resolver

variable {r : Resolver}

/-- The plan for all columns, applied. -/
theorem applyPlans_tables {s : Store} (h : r.Resolves s) (haliases : r.AliasesExist)
    (husers : s.users = r.users) :
    applyPlans (tables.map fun c => (c, r.planFor s c)) s =
      (.ok (tables.map fun c => plannedRows (r.planFor s c)), s.backfilled r.assign) := by
  -- the stores after the first and the second transaction
  let s₁ := s.setRows .createdBy (IdentityColumn.createdBy.column.fill r.assign (s.rows .createdBy))
  let s₂ := s₁.setRows .assignee
    (IdentityColumn.assignee.column.fill r.assign (s₁.rows .assignee))
  have hgroups : IdentityColumn.assignee.column.groups (s₁.rows .assignee) =
      IdentityColumn.assignee.column.groups (s.rows .assignee) := groups_assignee r.assign s.tasks
  have happly : ∀ (s' : Store) (c : IdentityColumn), s'.users = s.users →
      c.column.groups (s'.rows c) = c.column.groups (s.rows c) →
      applyMappings s' c (r.planFor s c) =
        .ok (s'.setRows c (c.column.fill r.assign (s'.rows c)), plannedRows (r.planFor s c)) := by
    intro s' c husers' hgroups'
    have hresolves : ∀ value, IsPending s' c value → r.IsAssigned value := by
      intro value hpending
      refine h c value (FillColumn.mem_keys_groups.1 ?_)
      rw [← hgroups']
      exact FillColumn.mem_keys_groups.2 hpending
    rw [← planFor_congr hgroups']
    exact applyMappings_planFor hresolves haliases (husers'.trans husers)
  show applyPlans [(.createdBy, r.planFor s .createdBy), (.assignee, r.planFor s .assignee),
    (.author, r.planFor s .author)] s = _
  rw [applyPlans, happly s .createdBy rfl rfl]
  show ((applyPlans [(.assignee, r.planFor s .assignee), (.author, r.planFor s .author)] s₁).1.map _,
    (applyPlans [(.assignee, r.planFor s .assignee), (.author, r.planFor s .author)] s₁).2) = _
  rw [applyPlans, happly s₁ .assignee rfl hgroups]
  show (((applyPlans [(.author, r.planFor s .author)] s₂).1.map _).map _,
    (applyPlans [(.author, r.planFor s .author)] s₂).2) = _
  rw [applyPlans, happly s₂ .author rfl rfl]
  show (_, s₂.setRows .author (IdentityColumn.author.column.fill r.assign (s₂.rows .author))) = _
  rw [backfilled_eq]
  rfl

end Resolver

/-! ## The arguments -/

/-- The alias map that the option gives: it is loaded, its ids are users, and it has no more than
    one statement can ask for. -/
def IsLoaded (users : List User) (option : Option (String × AliasFile))
    (aliasMap : Option AliasMap) : Prop :=
  (option = none ∧ aliasMap = none) ∨
    ∃ path file loaded, option = some (path, file) ∧ aliasMap = some loaded ∧
      loadAliasMap path file = .ok loaded ∧ (∀ p ∈ loaded, p.2 ∈ users.map User.id) ∧
        (distinctIds loaded).length ≤ maxVariableNumber

/-- The values are resolved with what the arguments say. -/
structure Yields (q : NameQuery) (opts : Options) (s : Store) (r : Resolver) : Prop where
  query : r.query = q
  users : r.users = s.users
  aliasMap : IsLoaded s.users opts.aliasMap r.aliasMap
  strategy : parseStrategy opts.userFallback = .ok r.strategy

theorem validate_eq_ok {users : List User} {aliasMap : AliasMap} :
    validateAliasMapUserIdsExist users aliasMap = .ok () ↔
      (∀ p ∈ aliasMap, p.2 ∈ users.map User.id) ∧
        (distinctIds aliasMap).length ≤ maxVariableNumber := by
  have hids : ∀ id, id ∈ distinctIds aliasMap ↔ ∃ p ∈ aliasMap, p.2 = id := by
    intro id
    rw [distinctIds, List.mem_dedup, List.mem_map]
  unfold validateAliasMapUserIdsExist
  dsimp only
  split_ifs with hnil hmany hmissing
  · refine ⟨fun _ => ⟨fun p hp => ?_, by rw [hnil]; exact Nat.zero_le _⟩, fun _ => rfl⟩
    have hmem := (hids p.2).2 ⟨p, hp, rfl⟩
    rw [hnil] at hmem
    cases hmem
  · constructor
    · intro h
      cases h
    · rintro ⟨-, hle⟩
      exact absurd hmany (by omega)
  · constructor
    · intro h
      cases h
    · rintro ⟨hall, -⟩
      obtain ⟨id, hid⟩ := List.exists_mem_of_length_pos hmissing
      obtain ⟨hmem, hnot⟩ := List.mem_filter.1 hid
      obtain ⟨p, hp, rfl⟩ := (hids id).1 hmem
      exact absurd (hall p hp) (by simpa using hnot)
  · refine ⟨fun _ => ⟨fun p hp => ?_, by omega⟩, fun _ => rfl⟩
    by_contra hnot
    refine hmissing (List.length_pos_of_mem (a := p.2) (List.mem_filter.2 ⟨?_, by simpa using hnot⟩))
    exact (hids p.2).2 ⟨p, hp, rfl⟩

theorem loadChecked_eq_ok {users : List User} {option : Option (String × AliasFile)}
    {aliasMap : Option AliasMap} :
    loadChecked users option = .ok aliasMap ↔ IsLoaded users option aliasMap := by
  cases option with
  | none =>
    constructor
    · intro h
      cases h
      exact .inl ⟨rfl, rfl⟩
    · rintro (⟨-, rfl⟩ | ⟨_, _, _, hnone, -⟩)
      · rfl
      · cases hnone
  | some given =>
    obtain ⟨path, file⟩ := given
    rw [loadChecked]
    cases hload : loadAliasMap path file with
    | error message =>
      constructor
      · intro h
        cases h
      · rintro (⟨hnone, -⟩ | ⟨_, _, loaded, hsome, -, hloaded, -⟩)
        · cases hnone
        · cases hsome
          rw [hload] at hloaded
          cases hloaded
    | ok loaded =>
      dsimp only
      cases hvalidate : validateAliasMapUserIdsExist users loaded with
      | error message =>
        constructor
        · intro h
          cases h
        · rintro (⟨hnone, -⟩ | ⟨_, _, loaded', hsome, -, hloaded, hvalid⟩)
          · cases hnone
          · cases hsome
            rw [hload] at hloaded
            cases hloaded
            rw [validate_eq_ok.2 hvalid] at hvalidate
            cases hvalidate
      | ok valid =>
        constructor
        · intro h
          cases h
          exact .inr ⟨path, file, loaded, rfl, rfl, hload, validate_eq_ok.1 hvalidate⟩
        · rintro (⟨hnone, -⟩ | ⟨_, _, loaded', hsome, rfl, hloaded, hvalid⟩)
          · cases hnone
          · cases hsome
            rw [hload] at hloaded
            cases hloaded
            rfl

theorem Yields.aliasesExist {q : NameQuery} {opts : Options} {s : Store} {r : Resolver}
    (h : Yields q opts s r) : r.AliasesExist := by
  intro aliasMap hmap p hp
  rcases h.aliasMap with ⟨-, hnone⟩ | ⟨_, _, loaded, -, hloaded, -, hvalid, -⟩
  · rw [hnone] at hmap
    cases hmap
  · rw [hloaded] at hmap
    cases hmap
    rw [h.users]
    exact hvalid p hp

theorem prepare_of_yields {q : NameQuery} {opts : Options} {s : Store} {r : Resolver}
    (h : Yields q opts s r) : prepare q opts s = r.tablePlans s tables := by
  obtain ⟨query, users, aliasMap, strategy⟩ := r
  obtain ⟨rfl, rfl, hmap, hstrategy⟩ := h
  rw [prepare, hstrategy]
  dsimp only
  rw [loadChecked_eq_ok.2 hmap]

/-- A plan is made with what the arguments yield. -/
theorem yields_of_prepare {q : NameQuery} {opts : Options} {s : Store} {plan : Plan}
    (h : prepare q opts s = .ok plan) : ∃ r, Yields q opts s r := by
  unfold prepare at h
  cases hstrategy : parseStrategy opts.userFallback with
  | error message =>
    rw [hstrategy] at h
    cases h
  | ok strategy =>
    rw [hstrategy] at h
    cases hmap : loadChecked s.users opts.aliasMap with
    | error message =>
      rw [hmap] at h
      cases h
    | ok aliasMap =>
      exact ⟨{ query := q, users := s.users, aliasMap := aliasMap, strategy := strategy },
        { query := rfl
          users := rfl
          aliasMap := loadChecked_eq_ok.1 hmap
          strategy := hstrategy }⟩

/-! ## The command -/

/-- How many rows of a column get a key. -/
def changedRows (assign : String → Option Nat) (s : Store) (c : IdentityColumn) : Nat :=
  (s.rows c).countP fun row => ((c.column.pending row).bind assign).isSome

/-- What the command does with its plan, where these users are assigned to the texts. -/
structure Backfills (r : Resolver) (assign : String → Option Nat) (s : Store) (plan : Plan)
    (rowsUpdated : List Nat) (s' : Store) : Prop where
  /-- A text has the user that the priorities assign to it, in all columns. -/
  assigned : ∀ c value, IsPending s c value → r.Assigned value (assign value)
  columns : plan.map Prod.fst = tables
  /-- The plan has every text without a key once. -/
  nodup : ∀ p ∈ plan, (p.2.map ResolvedMapping.value).Nodup
  texts : ∀ p ∈ plan, ∀ value,
    value ∈ p.2.map ResolvedMapping.value ↔ IsPending s p.1 value
  /-- It counts the rows of each. -/
  counts : ∀ p ∈ plan, ∀ m ∈ p.2,
    m.userId = assign m.value ∧ m.rowCount = (s.rows p.1).countP (p.1.column.isIn m.value)
  /-- The rows that the plan counts are updated, and no others. -/
  updated : rowsUpdated = plan.map fun p => plannedRows p.2
  changed : rowsUpdated = tables.map fun c => changedRows assign s c
  store : s' = s.backfilled assign

theorem migrate_of_resolves {q : NameQuery} {opts : Options} {s : Store} {r : Resolver}
    (hyields : Yields q opts s r) (h : r.Resolves s) :
    migrateIdentities q { opts with commit := true } s =
      (.applied (tables.map fun c => (c, r.planFor s c))
        (tables.map fun c => plannedRows (r.planFor s c)), s.backfilled r.assign) := by
  have hprepare : prepare q { opts with commit := true } s =
      .ok (tables.map fun c => (c, r.planFor s c)) :=
    (prepare_of_yields hyields).trans (Resolver.tablePlans_of_resolves h tables)
  rw [migrateIdentities, hprepare]
  dsimp only
  rw [if_pos rfl, Resolver.applyPlans_tables h hyields.aliasesExist hyields.users.symm]

theorem backfills_of_resolves {s : Store} {r : Resolver} (h : r.Resolves s) :
    Backfills r r.assign s (tables.map fun c => (c, r.planFor s c))
      (tables.map fun c => plannedRows (r.planFor s c)) (s.backfilled r.assign) where
  assigned := fun c value hpending =>
    (Resolver.resolveValue_of_isAssigned (h c value hpending)).1
  columns := rfl
  nodup := by
    intro p hp
    obtain ⟨c, -, rfl⟩ := List.mem_map.1 hp
    exact r.nodup_values_planFor s c
  texts := by
    intro p hp value
    obtain ⟨c, -, rfl⟩ := List.mem_map.1 hp
    exact Resolver.mem_values_planFor
  counts := by
    intro p hp m hm
    obtain ⟨c, -, rfl⟩ := List.mem_map.1 hp
    exact Resolver.of_mem_planFor hm
  updated := by rw [List.map_map]; rfl
  changed := List.map_congr_left fun c _ => r.plannedRows_planFor s c
  store := rfl

/-! ## A second run -/

theorem pending_orElse {assign : String → Option Nat} (user : Option Nat) (text : Option String)
    {value : String}
    (h : (if (user <|> text.bind assign).isNone then text else none) = some value) :
    (if user.isNone then text else none) = some value ∧ assign value = none := by
  split_ifs at h with hnone
  subst h
  cases user with
  | some id => cases hnone
  | none => exact ⟨rfl, Option.isNone_iff_eq_none.1 hnone⟩

/-- What is still without a key was so before, and nobody was assigned to it. -/
theorem pending_backfilled {assign : String → Option Nat} {s : Store} {c : IdentityColumn}
    {row : c.Row} (hrow : row ∈ (s.backfilled assign).rows c) {value : String}
    (h : c.column.pending row = some value) : IsPending s c value ∧ assign value = none := by
  cases c with
  | createdBy =>
    obtain ⟨t, ht, rfl⟩ := List.mem_map.1 hrow
    have hold := pending_orElse t.createdByUserId (some t.createdBy) h
    exact ⟨⟨t, ht, hold.1⟩, hold.2⟩
  | assignee =>
    obtain ⟨t, ht, rfl⟩ := List.mem_map.1 hrow
    have hold := pending_orElse t.assigneeUserId t.assignee h
    exact ⟨⟨t, ht, hold.1⟩, hold.2⟩
  | author =>
    obtain ⟨comment, hcomment, rfl⟩ := List.mem_map.1 hrow
    have hold := pending_orElse comment.authorUserId (some comment.author) h
    exact ⟨⟨comment, hcomment, hold.1⟩, hold.2⟩

theorem changedRows_backfilled (assign : String → Option Nat) (s : Store) (c : IdentityColumn) :
    changedRows assign (s.backfilled assign) c = 0 := by
  refine List.countP_eq_zero.2 fun row hrow => ?_
  cases hpending : c.column.pending row with
  | none => simp
  | some value => simp [(pending_backfilled hrow hpending).2]

theorem orElse_orElse (a b : Option Nat) : ((a <|> b) <|> b) = (a <|> b) := by
  cases a <;> cases b <;> rfl

theorem backfilled_backfilled (assign : String → Option Nat) (s : Store) :
    (s.backfilled assign).backfilled assign = s.backfilled assign := by
  have htask : Task.backfilled assign ∘ Task.backfilled assign = Task.backfilled assign := by
    funext t
    show { t with createdByUserId := _, assigneeUserId := _ } = Task.backfilled assign t
    rw [Task.backfilled]
    congr 1
    · exact orElse_orElse _ _
    · exact orElse_orElse _ _
  have hcomment : Comment.backfilled assign ∘ Comment.backfilled assign =
      Comment.backfilled assign := by
    funext comment
    show { comment with authorUserId := _ } = Comment.backfilled assign comment
    rw [Comment.backfilled]
    congr 1
    exact orElse_orElse _ _
  unfold Store.backfilled
  dsimp only
  rw [List.map_map, List.map_map, htask, hcomment]

/-- The same arguments yield the same after a run, and every text left is resolved. -/
theorem yields_backfilled {q : NameQuery} {opts : Options} {s : Store} {r : Resolver}
    (h : Yields q opts s r) : Yields q opts (s.backfilled r.assign) r :=
  { query := h.query, users := h.users, aliasMap := h.aliasMap, strategy := h.strategy }

theorem resolves_backfilled {s : Store} {r : Resolver} (h : r.Resolves s) :
    r.Resolves (s.backfilled r.assign) := by
  rintro c value ⟨row, hrow, hpending⟩
  exact h c value (pending_backfilled hrow hpending).1

/-- **Main theorem.** With `--commit`, either the arguments yield something to resolve every text
    with: then the plan counts the rows, these are updated, with the users that the priorities
    assign, and a second run updates none. Or they do not: then the command says why, and every
    table is as it was. -/
theorem migrateIdentities_spec (q : NameQuery) (opts : Options) (s : Store) :
    let run := migrateIdentities q { opts with commit := true }
    (∃ r assign plan rowsUpdated s', Yields q opts s r ∧ r.Resolves s ∧
        Backfills r assign s plan rowsUpdated s' ∧ run s = (.applied plan rowsUpdated, s') ∧
          ∃ plan', run s' = (.applied plan' (tables.map fun _ => 0), s')) ∨
      ((¬∃ r, Yields q opts s r ∧ r.Resolves s) ∧ ∃ message, run s = (.refused message, s)) := by
  intro run
  by_cases h : ∃ r, Yields q opts s r ∧ r.Resolves s
  · obtain ⟨r, hyields, hresolves⟩ := h
    refine .inl ⟨r, r.assign, _, _, _, hyields, hresolves, backfills_of_resolves hresolves,
      migrate_of_resolves hyields hresolves, ?_⟩
    have hresolves' := resolves_backfilled hresolves
    have hcounts : (tables.map fun c => plannedRows (r.planFor (s.backfilled r.assign) c)) =
        tables.map fun _ => 0 := by
      refine List.map_congr_left fun c _ => ?_
      rw [Resolver.plannedRows_planFor]
      exact changedRows_backfilled r.assign s c
    have hagain := migrate_of_resolves (yields_backfilled hyields) hresolves'
    rw [hcounts, backfilled_backfilled] at hagain
    exact ⟨_, hagain⟩
  · refine .inr ⟨h, ?_⟩
    have herror : ∃ message, prepare q { opts with commit := true } s = .error message := by
      cases hprepare : prepare q { opts with commit := true } s with
      | error message => exact ⟨message, rfl⟩
      | ok plan =>
        obtain ⟨r, hyields⟩ := yields_of_prepare hprepare
        have hyields' : Yields q opts s r :=
          { query := hyields.query
            users := hyields.users
            aliasMap := hyields.aliasMap
            strategy := hyields.strategy }
        have hunassigned : ∃ c value, IsPending s c value ∧ ¬r.IsAssigned value := by
          by_contra hnot
          refine h ⟨r, hyields', fun c value hpending => ?_⟩
          by_contra hvalue
          exact hnot ⟨c, value, hpending, hvalue⟩
        obtain ⟨c, value, hpending, hvalue⟩ := hunassigned
        have hmem : c ∈ tables := by cases c <;> decide
        obtain ⟨message, hmessage⟩ := Resolver.tablePlans_error hpending hvalue hmem
        rw [prepare_of_yields hyields, hmessage] at hprepare
        cases hprepare
    obtain ⟨message, herror⟩ := herror
    refine ⟨message, ?_⟩
    show migrateIdentities q { opts with commit := true } s = _
    rw [migrateIdentities, herror]

/-- The query as a scan of the table. -/
def NameQuery.scan : NameQuery where
  get := fun users name => (users.find? fun u => u.displayName = name).map User.id
  sound := by
    intro users name id h
    obtain ⟨u, hu, hid⟩ := Option.map_eq_some_iff.1 h
    exact ⟨u, List.mem_of_find?_eq_some hu, by simpa using List.find?_some hu, hid⟩
  complete := by
    intro users name h u hu
    simpa using List.find?_eq_none.1 (Option.map_eq_none_iff.1 h) u hu

/-- Four comments: by an address, by a name, by a person who is not known, and by a user. -/
def sampleStore : Store where
  users := [⟨1, some "ann@x.org", "Ann", false⟩, ⟨2, none, "Bob", false⟩]
  tasks := []
  comments :=
    [⟨1, 1, "ANN@x.org", "", .sqlite 0, none⟩, ⟨2, 1, "Bob", "", .sqlite 0, none⟩,
     ⟨3, 1, "Cid", "", .sqlite 0, none⟩, ⟨4, 1, "Bob", "", .sqlite 0, some 1⟩]

example :
    let run := migrateIdentities .scan { commit := true, userFallback := "skip" } sampleStore
    run.1 = .applied
      [(.createdBy, []), (.assignee, []),
       (.author, [⟨"ANN@x.org", some 1, 1, .email⟩, ⟨"Bob", some 2, 1, .displayName⟩,
         ⟨"Cid", none, 1, .skipped⟩])] [0, 0, 2] ∧
      run.2.comments.map Comment.authorUserId = [some 1, some 2, none, some 1] := by
  decide +kernel

end WoodFiredTasks.MigrateIdentities
