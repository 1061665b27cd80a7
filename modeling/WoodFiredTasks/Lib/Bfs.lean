import Mathlib.Data.List.Nodup
import Mathlib.Data.List.Perm.Subperm
import Mathlib.Data.Nat.Find
import Mathlib.Logic.Relation
import WoodFiredTasks.Lib.Acyclic

set_option autoImplicit false

/-! # Shortest distances by breadth-first search

The search with a queue that is never shortened: a cursor runs over it, and the entries before
the cursor are processed. A node enters the queue when its distance is set, so the queue and the
distance table are one list of entries in insertion order. The loop is cut by fuel, and
`distances_spec` says that one more unit than there are nodes is enough and that the entries are
then exactly the reachable nodes with the lengths of shortest walks to them.

At the end the table is closed under edges, each edge adding at most one to the distance, so no
walk is shorter than its entry (`Inv.le_of_walk`). That an edge into a node found earlier adds at
most one comes from the order of the queue: no entry exceeds an unprocessed one by more than
one. -/

universe u

namespace Bfs

variable {α : Type u}

/-- A walk of a given length. -/
def Walk (r : α → α → Prop) : Nat → α → α → Prop
  | 0, a, b => a = b
  | n + 1, a, b => ∃ c, Walk r n a c ∧ r c b

/-- The length of a shortest walk. -/
structure IsDist (r : α → α → Prop) (a b : α) (d : Nat) : Prop where
  walk : Walk r d a b
  le : ∀ n, Walk r n a b → d ≤ n

theorem IsDist.unique {r : α → α → Prop} {a b : α} {d d' : Nat} (h : IsDist r a b d)
    (h' : IsDist r a b d') : d = d' :=
  Nat.le_antisymm (h.le d' h'.walk) (h'.le d h.walk)

theorem exists_walk_iff {r : α → α → Prop} {a b : α} :
    (∃ n, Walk r n a b) ↔ Relation.ReflTransGen r a b := by
  constructor
  · intro h
    obtain ⟨n, hn⟩ := h
    induction n generalizing b with
    | zero => exact hn ▸ .refl
    | succ n ih =>
      obtain ⟨c, hc, hedge⟩ := hn
      exact (ih hc).tail hedge
  · intro h
    induction h with
    | refl => exact ⟨0, rfl⟩
    | tail _ hedge ih =>
      obtain ⟨n, hn⟩ := ih
      exact ⟨n + 1, _, hn, hedge⟩

/-- A reachable node has a distance. -/
theorem exists_isDist {r : α → α → Prop} {a b : α} (h : Relation.ReflTransGen r a b) :
    ∃ d, IsDist r a b d := by
  classical
  have hex := exists_walk_iff.2 h
  exact ⟨Nat.find hex, Nat.find_spec hex, fun n hn => Nat.find_min' hex hn⟩

section Search

variable [DecidableEq α]

/-- The entries that the neighbours of a node at distance `d` add to the queue. -/
def discover (d : Nat) : List (α × Nat) → List α → List (α × Nat)
  | _, [] => []
  | seen, next :: rest =>
    if next ∈ seen.map Prod.fst then discover d seen rest
    else (next, d + 1) :: discover d (seen ++ [(next, d + 1)]) rest

/-- The loop over the queue; `none` when it runs out of fuel. -/
def loop (succs : α → List α) : Nat → List (α × Nat) → List (α × Nat) → Option (List (α × Nat))
  | 0, _, _ => none
  | _ + 1, processed, [] => some processed
  | fuel + 1, processed, (cur, d) :: rest =>
    loop succs fuel (processed ++ [(cur, d)])
      (rest ++ discover d (processed ++ (cur, d) :: rest) (succs cur))

/-- The distance table of a node. -/
def distances (succs : α → List α) (fuel : Nat) (source : α) : Option (List (α × Nat)) :=
  loop succs fuel [] [(source, 0)]

/-- The edge relation of a successor function. -/
def Edge (succs : α → List α) (a b : α) : Prop := b ∈ succs a

/-! ## Neighbours -/

theorem mem_discover {d : Nat} {next : List α} :
    ∀ {seen : List (α × Nat)} {p : α × Nat}, p ∈ discover d seen next →
      p.1 ∈ next ∧ p.2 = d + 1 := by
  induction next with
  | nil => simp [discover]
  | cons a next ih =>
    intro seen p hp
    rw [discover] at hp
    split at hp
    · have := ih hp
      exact ⟨List.mem_cons_of_mem _ this.1, this.2⟩
    · rcases List.mem_cons.1 hp with rfl | hp
      · simp
      · have := ih hp
        exact ⟨List.mem_cons_of_mem _ this.1, this.2⟩

theorem discover_nodup {d : Nat} {next : List α} :
    ∀ {seen : List (α × Nat)}, (seen.map Prod.fst).Nodup →
      ((seen ++ discover d seen next).map Prod.fst).Nodup := by
  induction next with
  | nil => simp [discover]
  | cons a next ih =>
    intro seen hseen
    rw [discover]
    split
    · exact ih hseen
    · rename_i hnew
      have hseen' : ((seen ++ [(a, d + 1)]).map Prod.fst).Nodup := by
        rw [List.map_append, List.nodup_append]
        refine ⟨hseen, by simp, fun b hb c hc => ?_⟩
        rw [List.map_singleton, List.mem_singleton] at hc
        intro hbc
        rw [hbc, hc] at hb
        exact hnew hb
      simpa using ih hseen'

theorem discover_complete {d : Nat} {next : List α} :
    ∀ (seen : List (α × Nat)), ∀ b ∈ next, b ∈ (seen ++ discover d seen next).map Prod.fst := by
  induction next with
  | nil => simp
  | cons a next ih =>
    intro seen b hb
    rw [discover]
    rcases List.mem_cons.1 hb with rfl | hb
    · split
      · rename_i hold
        rw [List.map_append]
        exact List.mem_append_left _ hold
      · simp
    · split
      · exact ih seen b hb
      · simpa using ih (seen ++ [(a, d + 1)]) b hb

/-! ## The invariant -/

/-- What holds of the two parts of the queue. -/
structure Inv (succs : α → List α) (source : α) (processed pending : List (α × Nat)) : Prop where
  nodup : ((processed ++ pending).map Prod.fst).Nodup
  start : (source, 0) ∈ processed ++ pending
  walk : ∀ p ∈ processed ++ pending, Walk (Edge succs) p.2 source p.1
  closed : ∀ p ∈ processed, ∀ b ∈ succs p.1, ∃ q ∈ processed ++ pending, q.1 = b ∧ q.2 ≤ p.2 + 1
  sorted : pending.Pairwise fun p q => p.2 ≤ q.2
  near : ∀ p ∈ processed ++ pending, ∀ q ∈ pending, p.2 ≤ q.2 + 1

variable {succs : α → List α} {source cur : α} {processed pending rest : List (α × Nat)} {d : Nat}

theorem Inv.step (h : Inv succs source processed ((cur, d) :: rest)) :
    Inv succs source (processed ++ [(cur, d)])
      (rest ++ discover d (processed ++ (cur, d) :: rest) (succs cur)) := by
  have hassoc : ∀ new : List (α × Nat), processed ++ [(cur, d)] ++ (rest ++ new)
      = processed ++ (cur, d) :: rest ++ new := by simp
  have hlater : ∀ q ∈ rest, d ≤ q.2 := (List.pairwise_cons.1 h.sorted).1
  have hnear : ∀ p ∈ processed ++ (cur, d) :: rest, p.2 ≤ d + 1 := by
    intro p hp
    exact h.near p hp (cur, d) List.mem_cons_self
  refine ⟨?_, ?_, ?_, ?_, ?_, ?_⟩
  · rw [hassoc]
    exact discover_nodup h.nodup
  · rw [hassoc]
    exact List.mem_append_left _ h.start
  · intro p hp
    rw [hassoc] at hp
    rcases List.mem_append.1 hp with hp | hp
    · exact h.walk p hp
    · obtain ⟨hmem, hd⟩ := mem_discover hp
      rw [hd]
      exact ⟨cur, h.walk (cur, d) (by simp), hmem⟩
  · intro p hp b hb
    rw [hassoc]
    rcases List.mem_append.1 hp with hp | hp
    · obtain ⟨q, hq, hqb⟩ := h.closed p hp b hb
      exact ⟨q, List.mem_append_left _ hq, hqb⟩
    · -- the node just processed: a neighbour is new, or was found at most one further away
      rw [List.mem_singleton] at hp
      subst hp
      obtain ⟨q, hq, hqb⟩ := List.mem_map.1
        (discover_complete (d := d) (processed ++ (cur, d) :: rest) b hb)
      refine ⟨q, hq, hqb, ?_⟩
      rcases List.mem_append.1 hq with hq | hq
      · exact hnear q hq
      · exact Nat.le_of_eq (mem_discover hq).2
  · rw [List.pairwise_append]
    refine ⟨(List.pairwise_cons.1 h.sorted).2, ?_, ?_⟩
    · refine List.pairwise_of_forall_mem_list fun p hp q hq => ?_
      have := (mem_discover hp).2
      have := (mem_discover hq).2
      omega
    · intro p hp q hq
      rw [(mem_discover hq).2]
      exact hnear p (by simp [hp])
  · intro p hp q hq
    have hp' : p.2 ≤ d + 1 := by
      rw [hassoc] at hp
      rcases List.mem_append.1 hp with hp | hp
      · exact hnear p hp
      · exact Nat.le_of_eq (mem_discover hp).2
    have hq' : d ≤ q.2 := by
      rcases List.mem_append.1 hq with hq | hq
      · exact hlater q hq
      · have := (mem_discover hq).2
        omega
    omega

omit [DecidableEq α] in
/-- In a table without unprocessed entries no walk is shorter than the entry of its end. -/
theorem Inv.le_of_walk (h : Inv succs source processed []) :
    ∀ n b, Walk (Edge succs) n source b → ∃ q ∈ processed, q.1 = b ∧ q.2 ≤ n := by
  intro n
  induction n with
  | zero =>
    intro b hb
    subst hb
    exact ⟨(source, 0), by simpa using h.start, rfl, Nat.le_refl 0⟩
  | succ n ih =>
    intro b hb
    obtain ⟨c, hc, hedge⟩ := hb
    obtain ⟨p, hp, rfl, hle⟩ := ih c hc
    obtain ⟨q, hq, hqb, hle'⟩ := h.closed p hp b hedge
    rw [List.append_nil] at hq
    exact ⟨q, hq, hqb, by omega⟩

omit [DecidableEq α] in
/-- Such a table holds exactly the reachable nodes with their distances. -/
theorem Inv.exact (h : Inv succs source processed []) (b : α) (d : Nat) :
    (b, d) ∈ processed ↔ IsDist (Edge succs) source b d := by
  have hnodup := h.nodup
  rw [List.append_nil] at hnodup
  have hwalk : ∀ p ∈ processed, Walk (Edge succs) p.2 source p.1 := by
    intro p hp
    exact h.walk p (by simp [hp])
  constructor
  · intro hmem
    refine ⟨hwalk _ hmem, fun n hn => ?_⟩
    obtain ⟨q, hq, hqb, hle⟩ := h.le_of_walk n b hn
    have heq := List.inj_on_of_nodup_map hnodup hq hmem hqb
    rw [heq] at hle
    exact hle
  · intro hdist
    obtain ⟨q, hq, rfl, hle⟩ := h.le_of_walk d b hdist.walk
    have hge := hdist.le q.2 (hwalk q hq)
    have heq : q.2 = d := Nat.le_antisymm hle hge
    exact heq ▸ hq

theorem loop_spec {nodes : List α} (hnodes : ∀ p ∈ nodes, ∀ b ∈ succs p, b ∈ nodes)
    (fuel : Nat) : ∀ processed pending, Inv succs source processed pending →
      (∀ p ∈ processed ++ pending, p.1 ∈ nodes) → nodes.length < fuel + processed.length →
      ∃ ds, loop succs fuel processed pending = some ds ∧ Inv succs source ds [] := by
  induction fuel with
  | zero =>
    intro processed pending h hmem hfuel
    have hsub : (processed ++ pending).map Prod.fst ⊆ nodes := by
      intro a ha
      obtain ⟨p, hp, rfl⟩ := List.mem_map.1 ha
      exact hmem p hp
    have := (h.nodup.subperm hsub).length_le
    simp only [List.length_map, List.length_append] at this
    omega
  | succ fuel ih =>
    intro processed pending h hmem hfuel
    cases pending with
    | nil => exact ⟨processed, rfl, h⟩
    | cons entry rest =>
      obtain ⟨cur, d⟩ := entry
      refine ih _ _ h.step (fun p hp => ?_) ?_
      · have hcur : cur ∈ nodes := hmem (cur, d) (by simp)
        simp only [List.append_assoc, List.mem_append, List.mem_singleton] at hp
        rcases hp with hp | rfl | hp | hp
        · exact hmem p (by simp [hp])
        · exact hcur
        · exact hmem p (by simp [hp])
        · exact hnodes cur hcur p.1 (mem_discover hp).1
      · simp only [List.length_append, List.length_singleton]
        omega

/-- **Main theorem.** On a finite graph the search ends, with each reachable node once, at its
    shortest distance. -/
theorem distances_spec {nodes : List α} (hsource : source ∈ nodes)
    (hnodes : ∀ p ∈ nodes, ∀ b ∈ succs p, b ∈ nodes) :
    ∃ ds, distances succs (nodes.length + 1) source = some ds ∧ (ds.map Prod.fst).Nodup ∧
      ∀ b d, (b, d) ∈ ds ↔ IsDist (Edge succs) source b d := by
  have hstart : Inv succs source [] [(source, 0)] := by
    refine ⟨by simp, by simp, ?_, by simp, by simp, by simp⟩
    intro p hp
    rw [List.nil_append, List.mem_singleton] at hp
    subst hp
    rfl
  obtain ⟨ds, hds, h⟩ := loop_spec hnodes (nodes.length + 1) [] _ hstart
    (by simpa using hsource) (by simp)
  exact ⟨ds, hds, by simpa using h.nodup, h.exact⟩

end Search

end Bfs

/-! ## Reachable nodes without distances

The search of `Bfs` without distances: nodes that have been seen are not queued again. It visits
the same nodes in the same order (`visitLoop_eq_map_loop`), so on a finite graph it ends with each
reachable node once. Without a cycle a node has more nodes behind it than each of these has. -/

namespace Reach

variable {α : Type u} [DecidableEq α]

/-- The neighbours that are new to the queue. -/
def unseen : List α → List α → List α
  | _, [] => []
  | seen, next :: rest =>
    if next ∈ seen then unseen seen rest else next :: unseen (seen ++ [next]) rest

/-- The loop over the queue; `none` when it runs out of fuel. -/
def visitLoop (succs : α → List α) : Nat → List α → List α → Option (List α)
  | 0, _, _ => none
  | _ + 1, processed, [] => some processed
  | fuel + 1, processed, cur :: rest =>
    visitLoop succs fuel (processed ++ [cur])
      (rest ++ unseen (processed ++ cur :: rest) (succs cur))

/-- The nodes that are seen from a node, itself the first. -/
def visited (succs : α → List α) (fuel : Nat) (source : α) : Option (List α) :=
  visitLoop succs fuel [] [source]

theorem unseen_eq_map_discover (d : Nat) (seen : List (α × Nat)) (next : List α) :
    unseen (seen.map Prod.fst) next = (Bfs.discover d seen next).map Prod.fst := by
  induction next generalizing seen with
  | nil => rfl
  | cons a rest ih =>
    rw [unseen, Bfs.discover]
    by_cases ha : a ∈ seen.map Prod.fst
    · rw [if_pos ha, if_pos ha, ih]
    · rw [if_neg ha, if_neg ha, List.map_cons, ← ih, List.map_append]
      rfl

/-- Both searches visit the same nodes. -/
theorem visitLoop_eq_map_loop (succs : α → List α) (fuel : Nat)
    (processed pending : List (α × Nat)) :
    visitLoop succs fuel (processed.map Prod.fst) (pending.map Prod.fst)
      = (Bfs.loop succs fuel processed pending).map (List.map Prod.fst) := by
  induction fuel generalizing processed pending with
  | zero => rfl
  | succ fuel ih =>
    cases pending with
    | nil => rfl
    | cons entry rest =>
      obtain ⟨cur, d⟩ := entry
      rw [Bfs.loop, ← ih, List.map_cons, visitLoop, List.map_append, List.map_append,
        ← unseen_eq_map_discover, List.map_append]
      rfl

/-- **Main theorem.** On a finite graph the search ends with each reachable node once. -/
theorem visited_spec {succs : α → List α} {source : α} {nodes : List α} (hsource : source ∈ nodes)
    (hnodes : ∀ a ∈ nodes, ∀ b ∈ succs a, b ∈ nodes) :
    ∃ seen, visited succs (nodes.length + 1) source = some seen ∧ seen.Nodup ∧
      ∀ b, b ∈ seen ↔ Relation.ReflTransGen (Bfs.Edge succs) source b := by
  obtain ⟨ds, hds, hnodup, hmem⟩ := Bfs.distances_spec hsource hnodes
  refine ⟨ds.map Prod.fst, ?_, hnodup, fun b => ?_⟩
  · have heq := visitLoop_eq_map_loop succs (nodes.length + 1) [] [(source, 0)]
    unfold Bfs.distances at hds
    rw [hds] at heq
    exact heq
  · constructor
    · intro hb
      obtain ⟨⟨b, d⟩, hbd, rfl⟩ := List.mem_map.1 hb
      exact Bfs.exists_walk_iff.1 ⟨d, ((hmem b d).1 hbd).walk⟩
    · intro hreach
      obtain ⟨d, hdist⟩ := Bfs.exists_isDist hreach
      exact List.mem_map.2 ⟨(b, d), (hmem b d).2 hdist, rfl⟩

/-! ## Nodes behind a node -/

variable {r : α → α → Prop} {a b : α} {below belowA : List α}

/-- What a list says of the nodes behind a node. -/
def IsBehind (r : α → α → Prop) (a : α) (l : List α) : Prop :=
  l.Nodup ∧ ∀ d, d ∈ l ↔ Relation.TransGen r a d

/-- Without a cycle, the nodes behind a node are the reachable ones but the node itself. -/
theorem isBehind_erase (hacyclic : Acyclic r) {seen : List α} (hnodup : seen.Nodup)
    (hseen : ∀ d, d ∈ seen ↔ Relation.ReflTransGen r a d) : IsBehind r a (seen.erase a) := by
  refine ⟨hnodup.erase a, fun d => ?_⟩
  rw [hnodup.mem_erase_iff, hseen]
  constructor
  · rintro ⟨hne, hreach⟩
    rcases Relation.reflTransGen_iff_eq_or_transGen.1 hreach with heq | hpath
    · exact absurd heq hne
    · exact hpath
  · intro hpath
    refine ⟨?_, hpath.to_reflTransGen⟩
    rintro rfl
    exact hacyclic _ hpath

omit [DecidableEq α] in
/-- A node has more nodes behind it than any of these. -/
theorem IsBehind.length_lt (hacyclic : Acyclic r) (ha : IsBehind r a belowA)
    (hb : IsBehind r b below) (hab : Relation.TransGen r a b) : below.length < belowA.length := by
  have hnotin : b ∉ below := fun h => hacyclic b ((hb.2 b).1 h)
  have hsub : b :: below ⊆ belowA := by
    intro d hd
    rcases List.mem_cons.1 hd with rfl | hd
    · exact (ha.2 _).2 hab
    · exact (ha.2 d).2 (hab.trans ((hb.2 d).1 hd))
  have hle := ((List.nodup_cons.2 ⟨hnotin, hb.1⟩).subperm hsub).length_le
  rw [List.length_cons] at hle
  omega

end Reach
