import BssCli.Chat.Contained
import BssCli.Lib.UrlPath

/-!
# The subscription that a request is about

The clients build a path out of the subscription's id as it is, and the id comes from the model. A URL library resolves dots, cuts
marks and trims the end. What the ownership check has read and what the operation behind it is on are two requests.
-/

open Text Url

namespace BssCli.Chat.Tools

/-! ## Requests -/

inductive Method
  | get
  | post
  deriving DecidableEq

/-- The calls of `SubscriptionClient` on a subscription that the tools make behind the check. -/
inductive Operation
  | balance
  | vasPurchase
  | schedulePlanChange
  | cancelPlanChange
  | terminate

namespace Operation

def name : Operation → List Char
  | balance => "balance".toList
  | vasPurchase => "vas-purchase".toList
  | schedulePlanChange => "schedule-plan-change".toList
  | cancelPlanChange => "cancel-plan-change".toList
  | terminate => "terminate".toList

def method : Operation → Method
  | balance => .get
  | _ => .post

end Operation

/-- `/subscription-api/v1/subscription/` -/
def root : List (List Char) := ["subscription-api".toList, "v1".toList, "subscription".toList]

/-- The path of `get`. -/
def documentPath (subscriptionId : List Char) : List Char := joined root ++ '/' :: subscriptionId

/-- The path of the operation. -/
def operationPath (op : Operation) (subscriptionId : List Char) : List Char := documentPath subscriptionId ++ '/' :: op.name

/-! ## Routes -/

/-- What a request is about: a segment of its path, as it came. -/
inductive Subject
  | document (segment : List UInt8)
  | byMsisdn (segment : List UInt8)
  | operation (name segment : List UInt8)

def byMsisdnName : List UInt8 := utf8 "by-msisdn".toList

def operationNames : Method → List (List UInt8)
  | .get => [utf8 "balance".toList]
  | .post =>
    [utf8 "vas-purchase".toList, utf8 "renew".toList, utf8 "terminate".toList, utf8 "schedule-plan-change".toList,
      utf8 "cancel-plan-change".toList]

/-- `subscription_router`, for the paths with a subscription in them. A parameter is not empty, and a name goes before one. -/
def route (method : Method) : List (List UInt8) → Option Subject
  | [a, b, c, x] => if [a, b, c] = root.map utf8 ∧ x ≠ [] ∧ method = .get then some (.document x) else none
  | [a, b, c, x, y] =>
    if [a, b, c] ≠ root.map utf8 ∨ x = [] ∨ y = [] then none
    else if x = byMsisdnName then if method = .get then some (.byMsisdn y) else none
    else if y ∈ operationNames method then some (.operation y x) else none
  | _ => none

def subjectOf (method : Method) (url : List Char) : Option Subject := (path url).bind (route method)

variable {method : Method} {segments : List (List UInt8)}

theorem route_document {x : List UInt8} (h : route method segments = some (.document x)) :
    x ≠ [] ∧ ∃ a b c, segments = [a, b, c, x] := by
  unfold route at h
  split at h
  · rename_i a b c x'
    split at h
    · rename_i hx
      obtain rfl := Subject.document.inj (Option.some.inj h)
      exact ⟨hx.2.1, a, b, c, rfl⟩
    · cases h
  · split at h
    · cases h
    · split at h
      · split at h <;> cases h
      · split at h <;> cases h
  · cases h

theorem route_byMsisdn {y : List UInt8} (h : route method segments = some (.byMsisdn y)) :
    y ≠ [] ∧ ∃ a b c, segments = [a, b, c, byMsisdnName, y] := by
  unfold route at h
  split at h
  · split at h <;> cases h
  · rename_i a b c x y'
    split at h
    · cases h
    · rename_i hfull
      split at h
      · rename_i hx
        split at h
        · obtain rfl := Subject.byMsisdn.inj (Option.some.inj h)
          exact ⟨fun hy => hfull (.inr (.inr hy)), a, b, c, by rw [hx]⟩
        · cases h
      · split at h <;> cases h
  · cases h

theorem route_operation {x y : List UInt8} (h : route method segments = some (.operation y x)) :
    x ≠ byMsisdnName ∧ ∃ a b c, segments = [a, b, c, x, y] := by
  unfold route at h
  split at h
  · split at h <;> cases h
  · rename_i a b c x' y'
    split at h
    · cases h
    · split at h
      · split at h <;> cases h
      · rename_i hx
        split at h
        · obtain ⟨rfl, rfl⟩ := Subject.operation.inj (Option.some.inj h)
          exact ⟨hx, a, b, c, rfl⟩
        · cases h
  · cases h

/-! ## The paths of both requests -/

/-- What the URL library makes of a text behind the root, in pieces. -/
def pieces (text : List Char) : List (List Char) :=
  ((visible (text.rdropWhile isEdge)).takeWhile fun c => !isMark c).splitOnP isSlash

theorem root_safe : ∀ p ∈ root, SafeSegment p := by
  intro p hp
  apply safe_of_plain
  have hall : ∀ p ∈ root, p.all isPlain = true := by decide
  exact hall p hp

theorem pathText_documentPath (text : List Char) :
    pathText (documentPath text) = joined root ++ '/' :: (visible (text.rdropWhile isEdge)).takeWhile fun c => !isMark c := by
  obtain ⟨hhead, hplain⟩ := joined_plain root_safe
  have hstart : (joined root ++ '/' :: text).dropWhile isEdge = joined root ++ '/' :: text :=
    List.dropWhile_cons_of_neg (by decide)
  have hvisible : visible (joined root ++ '/' :: text.rdropWhile isEdge) =
      joined root ++ '/' :: visible (text.rdropWhile isEdge) := by
    rw [visible_append, visible_self fun c hc => (hplain c hc).2]
    rfl
  have hkept : ∀ c ∈ joined root, (!isMark c) = true := by
    intro c hc
    rw [(hplain c hc).1]
    rfl
  unfold pathText documentPath
  rw [hstart, rdropWhile_append_cons (by decide), hvisible, List.takeWhile_append_of_pos hkept,
    List.takeWhile_cons_of_pos (by decide)]

theorem path_documentPath (text : List Char) :
    path (documentPath text) = some ((walk root (pieces text)).map encodeSegment) := by
  have hsplit : ∀ u : List Char, ("subscription-api".toList ++ joined ["v1".toList, "subscription".toList] ++ '/' :: u).splitOnP
      isSlash = root ++ u.splitOnP isSlash := by
    intro u
    rw [splitOnP_append_slash, splitOnP_joined fun q hq => (root_safe q hq).slashes]
    rfl
  unfold path
  rw [pathText_documentPath]
  show (if _ then some ((walk [] (("subscription-api".toList ++ joined ["v1".toList, "subscription".toList] ++
    '/' :: _).splitOnP isSlash)).map encodeSegment) else none) = _
  refine (if_pos (by rfl)).trans ?_
  rw [hsplit, walk_append (List.splitOnP_ne_nil _ _)]
  rfl

theorem takeWhile_append_of_mem {p : Char → Bool} {a : List Char} {c : Char} (hc : c ∈ a) (hp : p c = false) (b : List Char) :
    (a ++ b).takeWhile p = a.takeWhile p := by
  induction a with
  | nil => cases hc
  | cons d a ih =>
    rw [List.cons_append, List.takeWhile_cons, List.takeWhile_cons]
    split
    · rename_i hd
      rw [ih ((List.mem_cons.mp hc).resolve_left fun heq => absurd (heq ▸ hp) (by simp [hd]))]
    · rfl

theorem visible_rdrop (text : List Char) :
    visible text = visible (text.rdropWhile isEdge) ++ visible (text.rtakeWhile isEdge) := by
  rw [← visible_append]
  unfold List.rdropWhile List.rtakeWhile
  rw [← List.reverse_append, List.takeWhile_append_dropWhile, List.reverse_reverse]

/-- What is trimmed is neither a mark nor a slash. -/
theorem edge_plain {text : List Char} {c : Char} (hc : c ∈ visible (text.rtakeWhile isEdge)) :
    isEdge c = true ∧ isMark c = false ∧ isSlash c = false := by
  have hedge : isEdge c = true := List.mem_rtakeWhile_imp (List.mem_of_mem_filter hc)
  refine ⟨hedge, ?_, ?_⟩
  · by_contra hmark
    simp only [isMark, Bool.not_eq_false, Bool.or_eq_true, decide_eq_true_eq] at hmark
    rcases hmark with rfl | rfl <;> exact absurd hedge (by decide)
  · by_contra hslash
    simp only [isSlash, Bool.not_eq_false, Bool.or_eq_true, decide_eq_true_eq] at hslash
    rcases hslash with rfl | rfl <;> exact absurd hedge (by decide)

/-- No part of a dot segment is trimmed. -/
theorem not_edge_of_dots {p : List Char} (h : isDoubleDot p = true ∨ isSingleDot p = true) : ∀ c ∈ p, isEdge c = false := by
  have hsmall : ∀ n : Fin 0x21, (Char.ofNat n).toLower ∉ ['.', '%', '2', 'e'] := by decide
  have hchars : ∀ c ∈ p, c.toLower ∈ ['.', '%', '2', 'e'] := by
    intro c hc
    have hlower : c.toLower ∈ p.map Char.toLower := List.mem_map_of_mem hc
    have hall : (["..".toList, ".%2e".toList, "%2e.".toList, "%2e%2e".toList, ".".toList, "%2e".toList].all
        fun q => q.all fun d => decide (d ∈ ['.', '%', '2', 'e'])) = true := by decide
    refine of_decide_eq_true (List.all_eq_true.mp (List.all_eq_true.mp hall _ ?_) _ hlower)
    simp only [isDoubleDot, isSingleDot, decide_eq_true_eq, List.mem_cons, List.not_mem_nil, or_false] at h ⊢
    tauto
  intro c hc
  by_contra hedge
  simp only [isEdge, Bool.not_eq_false, decide_eq_true_eq] at hedge
  have hlower := hchars c hc
  rw [← Char.ofNat_toNat c] at hlower
  exact hsmall ⟨c.toNat, by omega⟩ hlower

theorem name_plain (op : Operation) :
    op.name.all isPlain = true ∧ op.name ≠ [] ∧ isDoubleDot op.name = false ∧ isSingleDot op.name = false := by
  cases op <;> decide

theorem encodeSegment_append (a b : List Char) : encodeSegment (a ++ b) = encodeSegment a ++ encodeSegment b := by
  unfold encodeSegment
  rw [utf8_append, List.flatMap_append]

/-- The pieces of the operation's path: those of the whole id and the name, or with a mark in the id those of the document's. -/
theorem pieces_operation (op : Operation) (id : List Char) :
    (pieces (id ++ '/' :: op.name) = pieces id) ∨
      ∃ init l, pieces id = init ++ [l] ∧
        pieces (id ++ '/' :: op.name) = init ++ [l ++ visible (id.rtakeWhile isEdge)] ++ [op.name] := by
  obtain ⟨hname, -, -, -⟩ := name_plain op
  have hlast : op.name.rdropWhile isEdge = op.name := by
    cases op <;> rfl
  have hvisible : visible ((id ++ '/' :: op.name).rdropWhile isEdge) = visible id ++ '/' :: op.name := by
    rw [rdropWhile_append_cons (by decide), hlast, visible_append]
    refine congrArg (visible id ++ ·) ?_
    exact visible_self (by simpa using ⟨by decide, visible_of_plain hname⟩)
  unfold pieces
  rw [hvisible]
  by_cases hmark : ∃ c ∈ visible (id.rdropWhile isEdge), isMark c = true
  · obtain ⟨c, hc, hmark⟩ := hmark
    left
    rw [visible_rdrop id, List.append_assoc, takeWhile_append_of_mem hc (by simp [hmark])]
  · right
    simp only [not_exists, not_and, Bool.not_eq_true] at hmark
    have hread : (visible (id.rdropWhile isEdge)).takeWhile (fun c => !isMark c) = visible (id.rdropWhile isEdge) :=
      List.takeWhile_eq_self_iff.mpr fun c hc => by simp [hmark c hc]
    have hwrite : (visible id ++ '/' :: op.name).takeWhile (fun c => !isMark c) = visible id ++ '/' :: op.name := by
      refine List.takeWhile_eq_self_iff.mpr fun c hc => ?_
      rw [visible_rdrop id, List.mem_append, List.mem_append, List.mem_cons] at hc
      rcases hc with (hc | hc) | rfl | hc
      · simp [hmark c hc]
      · simp [(edge_plain hc).2.1]
      · decide
      · simp [(safe_of_plain hname).marks c hc]
    obtain ⟨init, l, hsplit, happend⟩ :=
      splitOnP_append_plain (visible (id.rdropWhile isEdge))
        fun c (hc : c ∈ visible (id.rtakeWhile isEdge)) => (edge_plain hc).2.2
    refine ⟨init, l, by rw [hread, hsplit], ?_⟩
    rw [hwrite, splitOnP_append_slash, visible_rdrop id, happend,
      List.splitOnP_eq_singleton fun c hc => (safe_of_plain hname).slashes c hc]

/-- What the path of the document is where, with more behind its last piece and a name behind that, it has five segments. -/
theorem walk_of_segments {stack : List (List Char)} {l e name : List Char} {a b c x y : List UInt8}
    (he : ∀ d ∈ e, isEdge d = true)
    (hsegments : (resolved stack [l ++ e] ++ [name]).map encodeSegment = [a, b, c, x, y]) :
    y = encodeSegment name ∧
      ((walk stack [l]).map encodeSegment = [a, b, c, x, []] ∨ (walk stack [l]).map encodeSegment = [a, b, c, []] ∨
        (walk stack [l]).length = 3 ∨
        ∃ x', (walk stack [l]).map encodeSegment = [a, b, c, x'] ∧ x = x' ++ encodeSegment e) := by
  rw [List.map_append, List.map_singleton, show [a, b, c, x, y] = [a, b, c, x] ++ [y] from rfl] at hsegments
  obtain ⟨hfour, hy⟩ := List.append_inj' hsegments rfl
  refine ⟨(List.cons.inj hy).1.symm, ?_⟩
  rw [walk_single]
  by_cases hdots : isDoubleDot (l ++ e) = true ∨ isSingleDot (l ++ e) = true
  · -- A dot segment has nothing at its end that could be trimmed.
    have hempty : e = [] := by
      refine List.eq_nil_iff_forall_not_mem.mpr fun d hd => ?_
      have hnot := not_edge_of_dots hdots d (List.mem_append_right _ hd)
      rw [he d hd] at hnot
      cases hnot
    rw [hempty, List.append_nil] at hfour hdots
    rw [resolved_single] at hfour
    left
    by_cases hdouble : isDoubleDot l = true
    · rw [if_pos hdouble] at hfour ⊢
      rw [List.map_append, hfour]
      rfl
    · have hsingle := hdots.resolve_left hdouble
      rw [if_neg hdouble, if_pos hsingle] at hfour ⊢
      rw [List.map_append, hfour]
      rfl
  · rw [not_or] at hdots
    rw [resolved_single, if_neg hdots.1, if_neg hdots.2, List.map_append, List.map_singleton,
      show [a, b, c, x] = [a, b, c] ++ [x] from rfl] at hfour
    obtain ⟨hthree, hx⟩ := List.append_inj' hfour rfl
    have hlength := congrArg List.length hthree
    rw [List.length_map] at hlength
    right
    split
    · right; left
      rw [List.length_append, List.length_dropLast, hlength]
      rfl
    · split
      · left
        rw [List.map_append, hthree]
        rfl
      · right; right
        refine ⟨encodeSegment l, ?_, ?_⟩
        · rw [List.map_append, hthree]
          rfl
        · rw [← encodeSegment_append, (List.cons.inj hx).1]

/-- Where the operation is served on a subscription and the check was shown one, it was this one, up to blanks at its end. -/
theorem document_of_operation {op : Operation} {id : List Char} {x y : List UInt8}
    (hop : subjectOf op.method (operationPath op id) = some (.operation y x)) :
    (∀ x', subjectOf .get (documentPath id) = some (.document x') →
        y = utf8 op.name ∧ x = x' ++ encodeSegment (visible (id.rtakeWhile isEdge))) ∧
      ∀ m, subjectOf .get (documentPath id) ≠ some (.byMsisdn m) := by
  have hpath : operationPath op id = documentPath (id ++ '/' :: op.name) := by
    simp [operationPath, documentPath]
  unfold subjectOf at hop ⊢
  rw [hpath, path_documentPath, Option.bind_some] at hop
  rw [path_documentPath, Option.bind_some]
  obtain ⟨hx, a, b, c, hsegments⟩ := route_operation hop
  obtain ⟨hname, -, hdouble, hsingle⟩ := name_plain op
  rcases pieces_operation op id with hsame | ⟨init, l, hread, hwrite⟩
  · -- The name is behind a mark, and both requests have one path.
    rw [hsame] at hsegments
    rw [hsegments]
    constructor
    · intro x' hx'
      obtain ⟨-, a', b', c', hfour⟩ := route_document hx'
      simp at hfour
    · intro m hm
      obtain ⟨-, a', b', c', hfive⟩ := route_byMsisdn hm
      simp only [List.cons.injEq] at hfive
      exact hx hfive.2.2.2.1
  · have hplain : encodeSegment op.name = utf8 op.name := by
      cases op <;> decide
    rw [hwrite, walk_append (by simp), walk_single, if_neg (by simp [hdouble]), if_neg (by simp [hsingle]),
      resolved_append] at hsegments
    obtain ⟨hy, hwalk⟩ := walk_of_segments (fun d hd => (edge_plain hd).1) hsegments
    rw [hread, walk_append (by simp)]
    constructor
    · intro x' hx'
      obtain ⟨hne, a', b', c', hfour⟩ := route_document hx'
      refine ⟨hy.trans hplain, ?_⟩
      rcases hwalk with hfive | hempty | hthree | ⟨x'', hx'', heq⟩
      · simp [hfive] at hfour
      · rw [hempty] at hfour
        exact absurd (List.cons.inj (List.cons.inj (List.cons.inj (List.cons.inj hfour).2).2).2).1.symm hne
      · have hlength := congrArg List.length hfour
        simp [hthree] at hlength
      · rw [hx''] at hfour
        simp only [List.cons.injEq] at hfour
        rw [heq, hfour.2.2.2.1]
    · intro m hm
      obtain ⟨hne, a', b', c', hfive'⟩ := route_byMsisdn hm
      rcases hwalk with hfive | hempty | hthree | ⟨x'', hx'', -⟩
      · rw [hfive] at hfive'
        simp only [List.cons.injEq] at hfive'
        exact hx hfive'.2.2.2.1
      · simp [hempty] at hfive'
      · have hlength := congrArg List.length hfive'
        simp [hthree] at hlength
      · simp [hx''] at hfive'

/-! ## In every turn -/

/-- The operation of a call, and the subscription that the tool names. -/
def operationOf : ClientCall → Option (Operation × String)
  | .getBalance id => some (.balance, id)
  | .purchaseVas id _ => some (.vasPurchase, id)
  | .schedulePlanChange id _ => some (.schedulePlanChange, id)
  | .cancelPlanChange id => some (.cancelPlanChange, id)
  | .terminateWithReason id .. => some (.terminate, id)
  | _ => none

theorem keeps_operation {bound : Option String} {said : Said} {c : ClientCall} {op : Operation} {id : String}
    (h : Keeps bound said c) (hop : operationOf c = some (op, id)) : ∃ actor, bound = some actor ∧ Checked actor said id := by
  unfold operationOf at hop
  split at hop
  case h_6 => cases hop
  all_goals
    obtain ⟨-, rfl⟩ := Prod.mk.inj (Option.some.inj hop)
    exact h

/-- The model asks for the balance of a line of its customer, in a roundabout way. -/
def sampleRoundabout : List Arrival :=
  [.answer (.taken true),
   .answer (.turn { toolCalls := [⟨"call-1", "subscription.get_balance_mine", .obj [("subscription_id", .str "A/../SUB-1")]⟩] }),
   .answer (.taken true),
   .reply (.ok (.obj [("id", .str "SUB-1"), ("customerId", .str "CUST-1")]))]

end BssCli.Chat.Tools
