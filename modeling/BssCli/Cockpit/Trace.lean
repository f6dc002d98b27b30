import Mathlib.Data.List.Sort
import BssCli.Common
import BssCli.Lib.Forest
import BssCli.Lib.Json

/-!
# The picture of a trace

`bss trace` draws a row for each span of a Jaeger trace, parents before children, each as far in as its parents are many. What a trace
says of its spans is not to be relied on: a parent may be missing, a name may come twice, parents may go round.
-/

namespace BssCli.Cockpit.Trace

/-! ## Spans -/

def manualSpanNames : List String := ["com.order.complete_to_subscription", "som.decompose", "subscription.purchase_vas", "bss.ask"]

structure RenderSpan where
  spanId : String
  parentId : Option String
  service : String
  operation : String
  startMicros : ℤ
  durationMicros : ℤ
  isError : Bool
  isSql : Bool
  isManual : Bool
  /-- Empty where no span of the perimeter says who called. -/
  serviceIdentity : String
  depth : ℕ

/-- `to_uppercase`, and `to_string` of a value. -/
structure Texts where
  upper : String → String
  text : Json → String

variable (t : Texts)

def strAt (v : Json) (key : String) : Option String := (v.get key).bind Json.asStr

def asI64 : Json → Option ℤ
  | .int n => if FitsI64 n then some n else none
  | _ => none

def i64At (v : Json) (key : String) : ℤ := ((v.get key).bind asI64).getD 0

def arrayAt (v : Json) (key : String) : List Json := ((v.get key).bind Json.asArray).getD []

def isTrue : Json → Bool
  | .bool b => b
  | _ => false

def isSqlOperation (operation : String) : Bool :=
  t.upper operation ∈ ["BEGIN;", "COMMIT;", "ROLLBACK;"] ||
    ["SELECT", "INSERT", "UPDATE", "DELETE"].any fun p => p.toList.isPrefixOf operation.toList

def identityText : Json → String
  | .str s => s
  | .null => ""
  | v => t.text v

/-- The parent is the first reference that is one to a parent. -/
def parentIdOf (s : Json) : Option String :=
  ((arrayAt s "references").find? fun r => strAt r "refType" = some "CHILD_OF").bind fun r => strAt r "spanID"

def renderSpanOf (processes : Option Json) (s : Json) : RenderSpan :=
  let operation := (strAt s "operationName").getD "?"
  { spanId := (strAt s "spanID").getD ""
    parentId := parentIdOf s
    service := (((processes.bind fun p => p.get ((strAt s "processID").getD "")).bind fun p => strAt p "serviceName")).getD "?"
    operation := operation
    startMicros := i64At s "startTime"
    durationMicros := i64At s "duration"
    isError := (arrayAt s "tags").any fun tag => strAt tag "key" = some "error" && (tag.get "value").any isTrue
    isSql := isSqlOperation t operation
    isManual := operation ∈ manualSpanNames
    serviceIdentity := ((((arrayAt s "tags").find? fun tag => strAt tag "key" = some "bss.service.identity").bind fun tag =>
      tag.get "value").map (identityText t)).getD ""
    depth := 0 }

def normalize (trace : Json) : List RenderSpan := (arrayAt trace "spans").map (renderSpanOf t (trace.get "processes"))

/-! ## Depths -/

/-- Of two rows with one name the map has the last. -/
def byId (rows : List RenderSpan) (spanId : String) : Option RenderSpan := rows.reverse.find? fun r => r.spanId = spanId

/-- From one parent to the next, up to a row that has none, that is missing, or that was seen. -/
def depthOf (rows : List RenderSpan) : ℕ → String → Option String → List String → ℕ
  | 0, _, _, _ => 0
  | _ + 1, _, none, _ => 0
  | fuel + 1, curId, some pid, seen =>
    match byId rows pid with
    | none => 0
    | some p => if curId ∈ seen then 0 else depthOf rows fuel pid p.parentId (curId :: seen) + 1

def withDepth (rows : List RenderSpan) (r : RenderSpan) : RenderSpan :=
  { r with depth := depthOf rows (rows.length + 1) r.spanId r.parentId [] }

def assignDepths (rows : List RenderSpan) : List RenderSpan := rows.map (withDepth rows)

/-! ## The order of the tree -/

/-- A row with its place. -/
abbrev Placed := RenderSpan × ℕ

def startsBefore (r s : Placed) : Bool := r.1.startMicros ≤ s.1.startMicros

/-- `by_parent`, with the siblings in the order of their starts. -/
def childrenOf (rows : List RenderSpan) (key : Option String) : List Placed :=
  (rows.zipIdx.filter fun r => r.1.parentId = key).mergeSort startsBefore

def spanIdOf (r : Placed) : String := r.1.spanId

def walked (rows : List RenderSpan) : List Placed := (Forest.walk (childrenOf rows) spanIdOf (rows.length + 1) none ⟨[], []⟩).out

/-- What the walk does not find comes behind it. -/
def orphans (rows : List RenderSpan) : List Placed := rows.zipIdx.filter fun r => r.2 ∉ (walked rows).map Prod.snd

def sortByTreeOrder (rows : List RenderSpan) : List RenderSpan := (walked rows ++ orphans rows).map Prod.fst

/-! ## The picture -/

structure SwimlaneOpts where
  showSql : Bool
  onlyService : Option String

structure Swimlane where
  /-- The rows of the service that is asked for. -/
  rows : List RenderSpan
  visible : List RenderSpan
  hiddenSql : ℕ
  services : ℕ
  errors : ℕ

def onlyOf (opts : SwimlaneOpts) (r : RenderSpan) : Bool := opts.onlyService.all fun svc => r.service = svc

def isVisible (opts : SwimlaneOpts) (r : RenderSpan) : Bool := opts.showSql || !r.isSql

/-- `none` is the empty trace. -/
def renderSwimlane (opts : SwimlaneOpts) (trace : Json) : Option Swimlane :=
  if normalize t trace = [] then none
  else
    let rows := (sortByTreeOrder (assignDepths (normalize t trace))).filter (onlyOf opts)
    let visible := rows.filter (isVisible opts)
    some ⟨rows, visible, rows.length - visible.length, (rows.map RenderSpan.service).dedup.length, rows.countP RenderSpan.isError⟩

/-! ## Every span is drawn once -/

variable {rows : List RenderSpan}

theorem childrenOf_perm (rows : List RenderSpan) (key : Option String) :
    (childrenOf rows key).Perm (rows.zipIdx.filter fun r => r.1.parentId = key) := List.mergeSort_perm _ _

theorem mem_childrenOf {key : Option String} {r : Placed} : r ∈ childrenOf rows key ↔ r ∈ rows.zipIdx ∧ r.1.parentId = key := by
  rw [(childrenOf_perm rows key).mem_iff, List.mem_filter, decide_eq_true_eq]

theorem adds_walked (rows : List RenderSpan) : Forest.Adds (childrenOf rows) spanIdOf (childrenOf rows none) ⟨[], []⟩
    (Forest.walk (childrenOf rows) spanIdOf (rows.length + 1) none ⟨[], []⟩) (walked rows) := by
  have hmem : ∀ key, ∀ r ∈ childrenOf rows key, r ∈ rows.zipIdx := fun _ _ hr => (mem_childrenOf.mp hr).1
  exact Forest.adds_roots hmem (by simp)

theorem walked_subset (rows : List RenderSpan) : ∀ r ∈ walked rows, r ∈ rows.zipIdx :=
  (adds_walked rows).listed.subset (fun _ _ hr => (mem_childrenOf.mp hr).1) fun _ hr => (mem_childrenOf.mp hr).1

theorem nodup_walked (rows : List RenderSpan) : (walked rows).Nodup := (adds_walked rows).nodup.of_map _

theorem nodup_places (rows : List RenderSpan) : (rows.zipIdx.map Prod.snd).Nodup := by
  rw [List.zipIdx_map_snd]
  exact List.nodup_range'

theorem mem_orphans {r : Placed} : r ∈ orphans rows ↔ r ∈ rows.zipIdx ∧ r ∉ walked rows := by
  unfold orphans
  rw [List.mem_filter, decide_eq_true_eq]
  refine and_congr_right fun hr => not_congr ⟨fun hplace => ?_, List.mem_map_of_mem⟩
  obtain ⟨r', hr', hplace⟩ := List.mem_map.mp hplace
  exact List.inj_on_of_nodup_map (nodup_places rows) (walked_subset rows r' hr') hr hplace ▸ hr'

theorem perm_placed (rows : List RenderSpan) : (walked rows ++ orphans rows).Perm rows.zipIdx := by
  have hrows : rows.zipIdx.Nodup := (nodup_places rows).of_map _
  rw [List.perm_ext_iff_of_nodup _ hrows]
  · intro r
    rw [List.mem_append, mem_orphans]
    by_cases hr : r ∈ walked rows
    · simp [hr, walked_subset rows r hr]
    · simp [hr]
  · rw [List.nodup_append]
    refine ⟨nodup_walked rows, hrows.filter _, ?_⟩
    rintro r hr s hs rfl
    exact (mem_orphans.mp hs).2 hr

theorem sortByTreeOrder_perm (rows : List RenderSpan) : (sortByTreeOrder rows).Perm rows := by
  have hperm := (perm_placed rows).map Prod.fst
  rwa [List.zipIdx_map_fst] at hperm

/-! ## Where the names tell the spans apart -/

/-- A chain of parents of this length leads to a row that has none. -/
inductive At (rows : List RenderSpan) : ℕ → RenderSpan → Prop
  | root {r : RenderSpan} (hr : r ∈ rows) (h : r.parentId = none) : At rows 0 r
  | child {n : ℕ} {r p : RenderSpan} (hr : r ∈ rows) (hp : At rows n p) (h : r.parentId = some p.spanId) : At rows (n + 1) r

theorem At.mem {n : ℕ} {r : RenderSpan} (h : At rows n r) : r ∈ rows := by
  cases h <;> assumption

theorem byId_map {f : RenderSpan → RenderSpan} (hf : ∀ r, (f r).spanId = r.spanId) (spanId : String) :
    byId (rows.map f) spanId = (byId rows spanId).map f := by
  unfold byId
  rw [← List.map_reverse, List.find?_map]
  congr 1
  exact congrArg (fun q => List.find? q rows.reverse) (funext fun r => by simp [hf])

/-- Depths are found by the names alone. -/
theorem depthOf_map {f : RenderSpan → RenderSpan} (hf : ∀ r, (f r).spanId = r.spanId) (hp : ∀ r, (f r).parentId = r.parentId) (fuel : ℕ)
    (curId : String) (curParent : Option String) (seen : List String) :
    depthOf (rows.map f) fuel curId curParent seen = depthOf rows fuel curId curParent seen := by
  induction fuel generalizing curId curParent seen with
  | zero => rfl
  | succ fuel ih =>
    cases curParent with
    | none => rfl
    | some pid =>
      rw [depthOf, depthOf, byId_map hf]
      cases byId rows pid with
      | none => rfl
      | some p => simp only [Option.map_some, hp, ih]

theorem depth_assigned (rows : List RenderSpan) :
    ∀ r ∈ assignDepths rows, r.depth = depthOf (assignDepths rows) (rows.length + 1) r.spanId r.parentId [] := by
  intro r hr
  obtain ⟨r, -, rfl⟩ := List.mem_map.mp hr
  exact (depthOf_map (f := withDepth rows) (fun _ => rfl) (fun _ => rfl) _ _ _ _).symm

theorem named (hids : (rows.map RenderSpan.spanId).Nodup) :
    Forest.Named rows.zipIdx (childrenOf rows) spanIdOf fun r => r.1.parentId where
  mem _ _ := mem_childrenOf
  inj := by
    refine fun r hr s hs h => List.inj_on_of_nodup_map (f := spanIdOf) ?_ hr hs h
    rw [show spanIdOf = RenderSpan.spanId ∘ Prod.fst from rfl, ← List.map_map, List.zipIdx_map_fst]
    exact hids

/-- What has a root has a depth. -/
theorem exists_at {r : Placed} (h : Forest.Rooted rows.zipIdx spanIdOf (fun r => r.1.parentId) r) : ∃ n, At rows n r.1 := by
  have hmem : ∀ r ∈ rows.zipIdx, r.1 ∈ rows := fun r hr => by
    rw [← List.zipIdx_map_fst 0 rows]
    exact List.mem_map_of_mem hr
  induction h with
  | root hr h => exact ⟨0, .root (hmem _ hr) h⟩
  | child hr _ h ih =>
    obtain ⟨n, hn⟩ := ih
    exact ⟨n + 1, .child (hmem _ hr) hn h⟩

section

variable (hids : (rows.map RenderSpan.spanId).Nodup)

include hids

theorem eq_of_spanId {r s : RenderSpan} (hr : r ∈ rows) (hs : s ∈ rows) (h : r.spanId = s.spanId) : r = s :=
  List.inj_on_of_nodup_map hids hr hs h

theorem At.unique {n m : ℕ} {r : RenderSpan} (hn : At rows n r) (hm : At rows m r) : n = m := by
  induction hn generalizing m with
  | root hr h =>
    cases hm with
    | root => rfl
    | child _ _ h' =>
      rw [h] at h'
      cases h'
  | @child n r p hr hp h ih =>
    cases hm with
    | root _ h' =>
      rw [h] at h'
      cases h'
    | @child m _ p' _ hp' h' =>
      obtain rfl := eq_of_spanId hids hp.mem hp'.mem (Option.some.inj (h.symm.trans h'))
      rw [ih hp']

theorem byId_eq {p : RenderSpan} (hp : p ∈ rows) : byId rows p.spanId = some p := by
  unfold byId
  cases hfind : rows.reverse.find? fun r => r.spanId = p.spanId with
  | none => exact absurd (List.find?_eq_none.mp hfind p (List.mem_reverse.mpr hp)) (by simp)
  | some q =>
    have hq : q ∈ rows := List.mem_reverse.mp (List.mem_of_find?_eq_some hfind)
    rw [eq_of_spanId hids hq hp (by simpa using List.find?_some hfind)]

/-- A row is no deeper than there are rows. -/
theorem At.lt {n : ℕ} {r : RenderSpan} (h : At rows n r) : n < rows.length := by
  suffices hchain : ∃ l : List RenderSpan, l.length = n + 1 ∧ l.Nodup ∧ l ⊆ rows ∧ ∀ x ∈ l, ∃ m ≤ n, At rows m x by
    obtain ⟨l, hlen, hnodup, hsubset, -⟩ := hchain
    have hle := (List.subperm_of_subset hnodup hsubset).length_le
    omega
  induction h with
  | @root r hr h => exact ⟨[r], rfl, List.nodup_singleton r, by simpa using hr, by simpa using At.root hr h⟩
  | @child n r p hr hp h ih =>
    obtain ⟨l, hlen, hnodup, hsubset, hat⟩ := ih
    refine ⟨r :: l, by simp [hlen], List.nodup_cons.mpr ⟨fun hmem => ?_, hnodup⟩, List.cons_subset.mpr ⟨hr, hsubset⟩, ?_⟩
    · obtain ⟨m, hm, hat⟩ := hat r hmem
      have hsame := At.unique hids (.child hr hp h) hat
      omega
    · refine List.forall_mem_cons.mpr ⟨⟨n + 1, le_rfl, .child hr hp h⟩, fun x hx => ?_⟩
      obtain ⟨m, hm, hat⟩ := hat x hx
      exact ⟨m, by omega, hat⟩

/-- The depth is the length of the chain. -/
theorem depthOf_eq {n fuel : ℕ} {r : RenderSpan} {seen : List String} (h : At rows n r) (hfuel : n < fuel)
    (hseen : ∀ x ∈ rows, x.spanId ∈ seen → ∀ m, At rows m x → n < m) : depthOf rows fuel r.spanId r.parentId seen = n := by
  induction h generalizing fuel seen with
  | root hr h =>
    obtain ⟨fuel, rfl⟩ := Nat.exists_eq_succ_of_ne_zero (Nat.ne_of_gt hfuel)
    rw [h]
    rfl
  | @child n r p hr hp h ih =>
    obtain ⟨fuel, rfl⟩ := Nat.exists_eq_succ_of_ne_zero (Nat.ne_of_gt (Nat.zero_lt_of_lt hfuel))
    have hnot : r.spanId ∉ seen := fun hmem => absurd (hseen r hr hmem (n + 1) (.child hr hp h)) (Nat.lt_irrefl _)
    rw [h, depthOf, byId_eq hids hp.mem]
    simp only [if_neg hnot]
    rw [ih (by omega)]
    intro x hx hmem m hm
    rcases List.mem_cons.mp hmem with heq | hmem
    · obtain rfl := eq_of_spanId hids hx hr heq
      have hsame := At.unique hids hm (.child hr hp h)
      omega
    · have hlt := hseen x hx hmem m hm
      omega

/-- Below a row that has a root, depths go up by one. -/
theorem depth_child (hdepth : ∀ r ∈ rows, r.depth = depthOf rows (rows.length + 1) r.spanId r.parentId []) {n : ℕ} {r : RenderSpan}
    (h : At rows n r) : r.depth = n := by
  have hlt := At.lt hids h
  rw [hdepth r h.mem]
  exact depthOf_eq hids h (by omega) fun _ _ hmem => absurd hmem List.not_mem_nil

end

/-- A picture of `rows`: first the rows that have a root, then the others, as they come. -/
structure Drawn (rows tree rest : List RenderSpan) : Prop where
  order : sortByTreeOrder rows = tree ++ rest
  rest : rest.Sublist rows
  rooted : ∀ r, r ∈ tree ↔ ∃ n, At rows n r
  depth : ∀ n r, At rows n r → r.depth = n
  /-- The parent of a row is the nearest one above it that is less far in. -/
  parents : ∀ a r b pid, tree = a ++ r :: b → r.parentId = some pid →
    ∃ a₁ p a₂, a = a₁ ++ p :: a₂ ∧ p.spanId = pid ∧ r.depth = p.depth + 1 ∧ ∀ x ∈ a₂, r.depth ≤ x.depth
  siblings : tree.Pairwise fun r s => r.parentId = s.parentId → r.startMicros ≤ s.startMicros

theorem rooted_of_at {n : ℕ} {r : RenderSpan} (h : At rows n r) :
    ∃ i, (r, i) ∈ rows.zipIdx ∧ Forest.Rooted rows.zipIdx spanIdOf (fun r => r.1.parentId) (r, i) := by
  have hplace : ∀ r ∈ rows, ∃ i, (r, i) ∈ rows.zipIdx := by
    intro r hr
    rw [← List.zipIdx_map_fst 0 rows] at hr
    obtain ⟨⟨r', i⟩, hmem, rfl⟩ := List.mem_map.mp hr
    exact ⟨i, hmem⟩
  induction h with
  | root hr h =>
    obtain ⟨i, hi⟩ := hplace _ hr
    exact ⟨i, hi, .root hi h⟩
  | child hr hp h ih =>
    obtain ⟨i, hi⟩ := hplace _ hr
    obtain ⟨j, -, hj⟩ := ih
    exact ⟨i, hi, .child hi hj h⟩

theorem sorted_childrenOf (rows : List RenderSpan) (key : Option String) :
    (childrenOf rows key).Pairwise fun r s => r.1.startMicros ≤ s.1.startMicros := by
  have hsorted : (childrenOf rows key).Pairwise fun r s => startsBefore r s = true := by
    apply List.pairwise_mergeSort
    · intro a b c hab hbc
      simp only [startsBefore, decide_eq_true_eq] at *
      omega
    · intro a b
      simp only [startsBefore, Bool.or_eq_true, decide_eq_true_eq]
      omega
  exact hsorted.imp fun h => by simpa [startsBefore] using h

theorem drawn (hids : (rows.map RenderSpan.spanId).Nodup)
    (hdepth : ∀ r ∈ rows, r.depth = depthOf rows (rows.length + 1) r.spanId r.parentId []) :
    Drawn rows ((walked rows).map Prod.fst) ((orphans rows).map Prod.fst) := by
  have hnamed := named hids
  have hat : ∀ n r, At rows n r → r.depth = n := fun n r h => depth_child hids hdepth h
  have hwalked : ∀ r, r ∈ walked rows ↔ Forest.Rooted rows.zipIdx spanIdOf (fun r => r.1.parentId) r := fun r =>
    Forest.mem_walk hnamed (by simp)
  have hlisted := (adds_walked rows).listed
  have hroots : ∀ r ∈ childrenOf rows none, Forest.Rooted rows.zipIdx spanIdOf (fun r => r.1.parentId) r ∧ r.1.depth = 0 := by
    intro r hr
    have hroot : Forest.Rooted rows.zipIdx spanIdOf (fun r => r.1.parentId) r := .root (hnamed.of_mem hr).1 (hnamed.of_mem hr).2
    refine ⟨hroot, ?_⟩
    obtain ⟨n, hn⟩ := exists_at hroot
    cases hn with
    | root hr' h => exact hat 0 _ (.root hr' h)
    | child _ _ h => exact absurd ((hnamed.of_mem hr).2.symm.trans h) (by simp)
  have hstep : ∀ i j : Placed, Forest.Rooted rows.zipIdx spanIdOf (fun r => r.1.parentId) j → i ∈ rows.zipIdx →
      i.1.parentId = some (spanIdOf j) → i.1.depth = j.1.depth + 1 := by
    intro i j hj hi h
    obtain ⟨n, hn⟩ := exists_at hj
    have hmem : i.1 ∈ rows := by
      rw [← List.zipIdx_map_fst 0 rows]
      exact List.mem_map_of_mem hi
    rw [hat n _ hn, hat (n + 1) _ (.child hmem hn h)]
  refine ⟨List.map_append, ?_, fun r => ⟨fun hr => ?_, ?_⟩, hat, fun a r b pid hsplit hpid => ?_, ?_⟩
  · have hsublist : ((orphans rows).map Prod.fst).Sublist (rows.zipIdx.map Prod.fst) := List.filter_sublist.map _
    rwa [List.zipIdx_map_fst] at hsublist
  · obtain ⟨r, hmem, rfl⟩ := List.mem_map.mp hr
    exact exists_at ((hwalked r).mp hmem)
  · rintro ⟨n, hn⟩
    obtain ⟨i, -, hi⟩ := rooted_of_at hn
    exact List.mem_map.mpr ⟨(r, i), (hwalked _).mpr hi, rfl⟩
  · obtain ⟨a', rb, ha', rfl, hrb⟩ := List.map_eq_append_iff.mp hsplit
    obtain ⟨r', b', rfl, rfl, rfl⟩ := List.map_eq_cons_iff.mp hrb
    rcases (hlisted.indent hnamed hstep hroots).2 a' r' b' ha' with htop | ⟨a₁, p, a₂, rfl, hparent, hdeeper, hbetween⟩
    · rw [(hnamed.of_mem htop).2] at hpid
      cases hpid
    · refine ⟨a₁.map Prod.fst, p.1, a₂.map Prod.fst, by simp, Option.some.inj (hparent.symm.trans hpid), hdeeper, fun x hx => ?_⟩
      obtain ⟨x', hx', rfl⟩ := List.mem_map.mp hx
      exact hbetween x' hx'
  · rw [List.pairwise_map]
    exact hlisted.sorted hnamed (sorted_childrenOf rows) (fun r hr => (hnamed.of_mem hr).2) (sorted_childrenOf rows none)
      (adds_walked rows).nodup fun _ _ => nofun

def sampleSpan (spanId parent : String) (start : ℤ) : Json :=
  .obj [("spanID", .str spanId), ("startTime", .int start),
    ("references", .arr [.obj [("refType", .str "CHILD_OF"), ("spanID", .str parent)]])]

/-- A root behind two of its children, and two spans whose parents go round. -/
def sampleTrace : Json :=
  .obj [("spans", .arr [sampleSpan "b" "a" 3, sampleSpan "c" "a" 2, .obj [("spanID", .str "a")], sampleSpan "d" "e" 4, sampleSpan "e" "d" 5])]

end BssCli.Cockpit.Trace
