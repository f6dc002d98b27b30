import BssCli.Lib.Json
import BssCli.Lib.Lines

/-!
# Ownership of tool results

`ownership.rs`: the walk along the configured paths of a result, and the check that each leaf is the acting customer.
-/

open Text

namespace BssCli.Agent

/-- The paths of each tool in the customer's profile. No path stands for no customer-bound field by contract. -/
def ownershipPaths : List (String × List String) :=
  [("catalog.list_vas", []),
   ("catalog.list_active_offerings", []),
   ("catalog.get_offering", []),
   ("subscription.list_mine", ["[*].customerId"]),
   ("subscription.get_mine", ["customerId"]),
   ("subscription.get_balance_mine", []),
   ("subscription.get_lpa_mine", []),
   ("usage.history_mine", []),
   ("customer.get_mine", ["id"]),
   ("payment.method_list_mine", ["[*].customerId"]),
   ("payment.charge_history_mine", ["[*].customerId"]),
   ("vas.purchase_for_me", ["customerId"]),
   ("subscription.schedule_plan_change_mine", ["customerId"]),
   ("subscription.cancel_pending_plan_change_mine", ["customerId"]),
   ("subscription.terminate_mine", ["customerId"]),
   ("case.open_for_me", ["customerId"]),
   ("case.list_for_me", ["[*].customerId"])]

def pathsFor (table : List (String × List String)) (toolName : String) : Option (List String) :=
  (table.find? (·.1 = toolName)).map (·.2)

/-- `path.split('.')` -/
def pathParts (path : String) : List String := (splitChar '.' path.toList).map String.ofList

/-- One part of a path, from one value. -/
def walkPart (part : String) (p : String × Json) : List (String × Json) :=
  if part = "[*]" then
    match p.2.asArray with
    | some values => values.zipIdx.map fun e => (p.1 ++ "[" ++ toString e.2 ++ "]", e.1)
    | none => []
  else
    match p.2.get part with
    | some v => [(if p.1 = "" then part else p.1 ++ "." ++ part, v)]
    | none => []

/-- Every leaf that the path reaches, with its label. -/
def walk (obj : Json) (path : String) : List (String × Json) :=
  (pathParts path).foldl (fun frontier part => frontier.flatMap (walkPart part)) [("", obj)]

structure OwnershipViolation where
  toolName : String
  actor : String
  path : String
  found : Json

/-- `value != Value::String(actor)` -/
def foreign (actor : String) (value : Json) : Bool := value.asStr ≠ some actor

/-- The first leaf that is not the actor, path by path. A result that is no JSON has none. -/
def assertOwnedOutput (table : List (String × List String)) (parse : List Char → Option Json) (toolName : String)
    (resultJson : List Char) (actor : String) : Option OwnershipViolation :=
  match pathsFor table toolName, parse resultJson with
  | some paths, some parsed =>
    paths.findSome? fun path =>
      ((walk parsed path).find? fun leaf => foreign actor leaf.2).map fun leaf =>
        ⟨toolName, actor, if leaf.1 = "" then path else leaf.1, leaf.2⟩
  | _, _ => none

/-! ## Leaves -/

/-- A leaf of a value: one array for each `[*]`, one key for each other part. -/
inductive Leaf : List String → Json → Json → Prop
  | here (v : Json) : Leaf [] v v
  | elem {parts : List String} {values : List Json} {e v : Json} (he : e ∈ values) (h : Leaf parts e v) :
      Leaf ("[*]" :: parts) (.arr values) v
  | key {parts : List String} {part : String} {obj w v : Json} (hpart : part ≠ "[*]") (hget : obj.get part = some w)
      (h : Leaf parts w v) : Leaf (part :: parts) obj v

theorem exists_walkPart {part : String} {parts : List String} {label : String} {obj v : Json} :
    (∃ p ∈ walkPart part (label, obj), Leaf parts p.2 v) ↔ Leaf (part :: parts) obj v := by
  unfold walkPart
  constructor
  · rintro ⟨p, hp, h⟩
    split at hp
    · rename_i hpart
      subst hpart
      split at hp
      · rename_i values hvalues
        obtain ⟨e, he, rfl⟩ := List.mem_map.mp hp
        cases obj with
        | arr xs =>
          obtain rfl := Option.some.inj hvalues
          exact .elem (List.fst_mem_of_mem_zipIdx he) h
        | _ => cases hvalues
      · exact absurd hp List.not_mem_nil
    · rename_i hpart
      split at hp
      · rename_i w hw
        rw [List.mem_singleton.mp hp] at h
        exact .key hpart hw h
      · exact absurd hp List.not_mem_nil
  · intro h
    cases h with
    | elem he h =>
      obtain ⟨i, hi, rfl⟩ := List.getElem_of_mem he
      refine ⟨(label ++ "[" ++ toString i ++ "]", _), ?_, h⟩
      rw [if_pos rfl]
      exact List.mem_map.mpr ⟨(_, i), List.mk_mem_zipIdx_iff_getElem?.mpr (List.getElem?_eq_getElem hi), rfl⟩
    | key hpart hget h =>
      rw [if_neg hpart]
      dsimp only
      rw [hget]
      exact ⟨_, List.mem_singleton_self _, h⟩

theorem exists_walk_iff {path : String} {obj v : Json} :
    (∃ p ∈ walk obj path, p.2 = v) ↔ Leaf (pathParts path) obj v := by
  have hfold : ∀ (parts : List String) (frontier : List (String × Json)),
      (∃ p ∈ parts.foldl (fun frontier part => frontier.flatMap (walkPart part)) frontier, p.2 = v) ↔
        ∃ p ∈ frontier, Leaf parts p.2 v := by
    intro parts
    induction parts with
    | nil =>
      intro frontier
      constructor
      · rintro ⟨p, hp, rfl⟩
        exact ⟨p, hp, .here _⟩
      · rintro ⟨p, hp, h⟩
        cases h
        exact ⟨p, hp, rfl⟩
    | cons part parts ih =>
      intro frontier
      rw [List.foldl_cons, ih]
      constructor
      · rintro ⟨p, hp, h⟩
        obtain ⟨q, hq, hp⟩ := List.mem_flatMap.mp hp
        exact ⟨q, hq, exists_walkPart.mp ⟨p, hp, h⟩⟩
      · rintro ⟨q, hq, h⟩
        obtain ⟨p, hp, h⟩ := exists_walkPart.mpr h
        exact ⟨p, List.mem_flatMap.mpr ⟨q, hq, hp⟩, h⟩
  unfold walk
  rw [hfold]
  simp

/-- The result has, at a configured path, a leaf that is not the actor. -/
def HasForeignLeaf (table : List (String × List String)) (parse : List Char → Option Json) (toolName : String)
    (resultJson : List Char) (actor : String) : Prop :=
  ∃ paths parsed, pathsFor table toolName = some paths ∧ parse resultJson = some parsed ∧
    ∃ path ∈ paths, ∃ v, Leaf (pathParts path) parsed v ∧ foreign actor v = true

theorem assertOwnedOutput_isSome_iff {table : List (String × List String)} {parse : List Char → Option Json}
    {toolName : String} {resultJson : List Char} {actor : String} :
    (assertOwnedOutput table parse toolName resultJson actor).isSome = true ↔
      HasForeignLeaf table parse toolName resultJson actor := by
  unfold assertOwnedOutput HasForeignLeaf
  constructor
  · intro h
    split at h
    · rename_i paths parsed hpaths hparsed
      rw [List.findSome?_isSome_iff] at h
      obtain ⟨path, hpath, h⟩ := h
      rw [Option.isSome_map, List.find?_isSome] at h
      obtain ⟨leaf, hleaf, hforeign⟩ := h
      exact ⟨paths, parsed, hpaths, hparsed, path, hpath, leaf.2, exists_walk_iff.mp ⟨leaf, hleaf, rfl⟩, hforeign⟩
    · cases h
  · rintro ⟨paths, parsed, hpaths, hparsed, path, hpath, v, hleaf, hforeign⟩
    obtain ⟨leaf, hwalk, rfl⟩ := exists_walk_iff.mpr hleaf
    rw [hpaths, hparsed]
    dsimp only
    rw [List.findSome?_isSome_iff]
    refine ⟨path, hpath, ?_⟩
    rw [Option.isSome_map, List.find?_isSome]
    exact ⟨leaf, hwalk, hforeign⟩

end BssCli.Agent
