import BssCli.Lib.Text
import Mathlib.Data.List.Basic
import Mathlib.Algebra.Order.BigOperators.Group.List

/-!
# Event streams

What a reader of server-sent events makes of a text. LF, CR and CR LF end a line, and an empty line dispatches an event. A frame
of one event is read as that event when its data is one line, and only then.
-/

namespace EventStream

/-! ## Lines -/

def isTerminator (c : Char) : Bool := c = '\n' || c = '\r'

/-- No line ends inside. -/
def OneLine (s : List Char) : Prop := ∀ c ∈ s, isTerminator c = false

/-- The lines that are over. What is behind the last terminator waits for more. -/
def linesFrom (acc : List Char) : List Char → List (List Char)
  | [] => []
  | '\n' :: s => acc :: linesFrom [] s
  | '\r' :: '\n' :: s => acc :: linesFrom [] s
  | '\r' :: s => acc :: linesFrom [] s
  | c :: s => linesFrom (acc ++ [c]) s

attribute [grind =] linesFrom

theorem linesFrom_cons {c : Char} (h : isTerminator c = false) (acc s : List Char) :
    linesFrom acc (c :: s) = linesFrom (acc ++ [c]) s := by
  unfold isTerminator at h
  rw [linesFrom]
  · rintro rfl
    cases h
  · rintro s' rfl
    cases h
  · rintro rfl
    cases h

theorem linesFrom_append {s : List Char} (h : OneLine s) (acc r : List Char) :
    linesFrom acc (s ++ r) = linesFrom (acc ++ s) r := by
  induction s generalizing acc with
  | nil => rw [List.nil_append, List.append_nil]
  | cons c s ih =>
    obtain ⟨hc, hs⟩ := List.forall_mem_cons.mp h
    rw [List.cons_append, linesFrom_cons hc, ih hs, List.append_assoc]
    rfl

theorem linesFrom_newline {s : List Char} (h : OneLine s) (r : List Char) :
    linesFrom [] (s ++ '\n' :: r) = s :: linesFrom [] r := by
  rw [linesFrom_append h, List.nil_append, linesFrom]

/-- The line ends at its first terminator, whichever it is. -/
theorem linesFrom_terminated {s : List Char} (h : OneLine s) {t : Char} (ht : isTerminator t = true) (r : List Char) :
    ∃ r', linesFrom [] (s ++ t :: r) = s :: linesFrom [] r' ∧ r' <:+ r := by
  rw [linesFrom_append h, List.nil_append]
  unfold isTerminator at ht
  rw [Bool.or_eq_true, decide_eq_true_iff, decide_eq_true_iff] at ht
  rcases ht with rfl | rfl
  · exact ⟨r, by rw [linesFrom], List.suffix_refl r⟩
  · cases r with
    | nil => exact ⟨[], by simp [linesFrom], List.suffix_refl []⟩
    | cons c r =>
      by_cases hc : c = '\n'
      · subst hc
        exact ⟨r, by rw [linesFrom], List.suffix_cons _ _⟩
      · exact ⟨c :: r, by rw [linesFrom]; rintro _ heq; exact hc (List.cons.inj heq).1, List.suffix_refl _⟩

/-- Terminators are in no line. -/
theorem length_linesFrom (acc s : List Char) :
    (linesFrom acc s).flatten.length ≤ acc.length + s.countP fun c => !isTerminator c := by
  induction acc, s using linesFrom.induct with
  | case1 acc => simp [linesFrom]
  | case2 acc s ih =>
    rw [linesFrom]
    simpa [isTerminator] using ih
  | case3 acc s ih =>
    rw [linesFrom]
    simpa [isTerminator] using ih
  | case4 acc s hs ih =>
    rw [linesFrom]
    · simpa [isTerminator] using ih
    · exact hs
  | case5 acc c s hn hr hs ih =>
    have hc : isTerminator c = false := by
      rw [isTerminator, decide_eq_false hn, decide_eq_false hs]
      rfl
    rw [linesFrom_cons hc, List.countP_cons, hc]
    rw [List.length_append] at ih
    simpa [Nat.add_assoc, Nat.add_comm 1] using ih

/-! ## Fields -/

structure Event where
  type : List Char
  data : List Char
  deriving DecidableEq

/-- The buffers of the event that comes, what a reconnection would use, and the events so far. -/
structure Reader where
  type : List Char := []
  data : List Char := []
  lastEventId : List Char := []
  retry : Option ℕ := none
  events : List Event := []
  deriving DecidableEq

namespace Reader

/-- An empty line. Without data there is no event. -/
def dispatch (r : Reader) : Reader :=
  if r.data = [] then
    { r with type := [] }
  else
    { r with
      type := []
      data := []
      events := r.events ++ [⟨if r.type = [] then "message".toList else r.type, r.data.dropLast⟩] }

def field (r : Reader) (name value : List Char) : Reader :=
  if name = "event".toList then { r with type := value }
  else if name = "data".toList then { r with data := r.data ++ value ++ ['\n'] }
  else if name = "id".toList then (if value.any (·.toNat = 0) then r else { r with lastEventId := value })
  else if name = "retry".toList then { r with retry := (Text.parseDigits value).or r.retry }
  else r

/-- One blank behind the colon is not part of the value. -/
def valueOf : List Char → List Char
  | ':' :: ' ' :: value => value
  | ':' :: value => value
  | value => value

def isColon (c : Char) : Bool := c = ':'

/-- A line with a colon in front has an empty field name, so it is a comment. -/
def line (r : Reader) (l : List Char) : Reader :=
  if l = [] then r.dispatch
  else r.field (l.takeWhile fun c => !isColon c) (valueOf (l.dropWhile fun c => !isColon c))

/-- A byte order mark counts at the start of the stream only. -/
def feed (r : Reader) (s : List Char) : Reader := (linesFrom [] s).foldl line r

/-- Between two events. -/
def Idle (r : Reader) : Prop := r.type = [] ∧ r.data = []

def push (r : Reader) (e : Event) : Reader := { r with events := r.events ++ [e] }

/-- How much data is held, with one character more for every event. -/
def size (r : Reader) : ℕ := r.data.length + (r.events.map fun e => e.data.length + 1).sum

variable {r : Reader}

theorem dispatch_size (r : Reader) : r.dispatch.size = r.size := by
  unfold dispatch size
  split
  · rfl
  · rename_i hdata
    have hpos := List.length_pos_of_ne_nil hdata
    simp only [List.map_append, List.sum_append, List.map_cons, List.map_nil, List.sum_cons, List.sum_nil,
      List.length_dropLast, List.length_nil]
    omega

theorem field_size (r : Reader) (name value : List Char) : (r.field name value).size ≤ r.size + name.length + value.length := by
  unfold field
  split
  · exact Nat.le_add_right_of_le (Nat.le_add_right _ _)
  split
  · rename_i _ hname
    rw [hname]
    unfold size
    simp only [List.length_append, List.length_singleton]
    have : "data".toList.length = 4 := rfl
    omega
  split
  · split <;> exact Nat.le_add_right_of_le (Nat.le_add_right _ _)
  split
  · exact Nat.le_add_right_of_le (Nat.le_add_right _ _)
  · exact Nat.le_add_right_of_le (Nat.le_add_right _ _)

theorem valueOf_length (s : List Char) : (valueOf s).length ≤ s.length := by
  unfold valueOf
  split
  · simp only [List.length_cons]
    omega
  · exact Nat.le_succ _
  · exact Nat.le_refl _

/-- A line brings in no more data than it is long. Its end is not counted, but the event is. -/
theorem line_size (r : Reader) (l : List Char) : (r.line l).size ≤ r.size + l.length := by
  unfold line
  split
  · rw [dispatch_size]
    exact Nat.le_add_right _ _
  · have hfield := field_size r (l.takeWhile fun c => !isColon c) (valueOf (l.dropWhile fun c => !isColon c))
    have hvalue := valueOf_length (l.dropWhile fun c => !isColon c)
    have hsplit := congrArg List.length (List.takeWhile_append_dropWhile (p := fun c => !isColon c) (l := l))
    rw [List.length_append] at hsplit
    omega

theorem lines_size (ls : List (List Char)) (r : Reader) : (ls.foldl line r).size ≤ r.size + ls.flatten.length := by
  induction ls generalizing r with
  | nil => exact Nat.le_refl _
  | cons l ls ih =>
    have hline := line_size r l
    have hrest := ih (r.line l)
    rw [List.foldl_cons, List.flatten_cons, List.length_append]
    omega

theorem size_push (r : Reader) (e : Event) : (r.push e).size = r.size + e.data.length + 1 := by
  unfold push size
  simp only [List.map_append, List.sum_append, List.map_cons, List.map_nil, List.sum_cons, List.sum_nil]
  omega

end Reader

/-! ## Frames -/

/-- The reader decodes first. -/
def Reader.feedBytes (r : Reader) (bytes : List UInt8) : Option Reader :=
  bytes.toByteArray.utf8Decode?.map fun cs => r.feed cs.toList

theorem Reader.feedBytes_utf8 (r : Reader) (s : List Char) : r.feedBytes (Text.utf8 s) = some (r.feed s) := by
  unfold Reader.feedBytes Text.utf8
  have hdecode := List.utf8Decode?_utf8Encode (l := s)
  unfold List.utf8Encode at hdecode
  rw [hdecode]
  rfl

/-- The two fields of an event, and the empty line. -/
def frame (e : Event) : List Char := "event: ".toList ++ e.type ++ "\ndata: ".toList ++ e.data ++ "\n\n".toList

/-- A frame starts in an event name that is there, on one line. -/
structure Event.Named (e : Event) : Prop where
  ne_nil : e.type ≠ []
  oneLine : OneLine e.type

theorem OneLine.append {s t : List Char} (hs : OneLine s) (ht : OneLine t) : OneLine (s ++ t) := by
  intro c hc
  rcases List.mem_append.mp hc with hc | hc
  · exact hs c hc
  · exact ht c hc

theorem oneLine_event : OneLine "event: ".toList := by
  simp [OneLine, isTerminator]

theorem oneLine_data : OneLine "data: ".toList := by
  simp [OneLine, isTerminator]

open Reader

/-- The first line of a frame names the event, and the second one starts. -/
theorem feed_event {e : Event} (he : e.Named) (r : Reader) (s : List Char) :
    r.feed (frame e ++ s) = (linesFrom [] ("data: ".toList ++ e.data ++ "\n\n".toList ++ s)).foldl line { r with type := e.type } := by
  have hframe : frame e ++ s = ("event: ".toList ++ e.type) ++ '\n' :: ("data: ".toList ++ e.data ++ "\n\n".toList ++ s) := by
    unfold frame
    simp only [List.append_assoc]
    rfl
  rw [feed, hframe, linesFrom_newline (oneLine_event.append he.oneLine), List.foldl_cons]
  rfl

theorem line_data (r : Reader) (value : List Char) :
    r.line ("data: ".toList ++ value) = { r with data := r.data ++ value ++ ['\n'] } := rfl

/-- A frame on one line is one event, wherever it stands between two. -/
theorem feed_frame {e : Event} (he : e.Named) (hdata : OneLine e.data) {r : Reader} (hr : r.Idle) (s : List Char) :
    r.feed (frame e ++ s) = (r.push e).feed s := by
  obtain ⟨htype, hempty⟩ := hr
  have hrest : "data: ".toList ++ e.data ++ "\n\n".toList ++ s = ("data: ".toList ++ e.data) ++ '\n' :: ([] ++ '\n' :: s) := by
    simp only [List.append_assoc]
    rfl
  have hdispatch : ({ r with type := e.type, data := r.data ++ e.data ++ ['\n'] } : Reader).dispatch = r.push e := by
    unfold dispatch push
    rw [if_neg (by simp), if_neg he.ne_nil, hempty, List.nil_append, List.dropLast_concat, htype]
  rw [feed_event he, hrest, linesFrom_newline (oneLine_data.append hdata), List.foldl_cons, line_data,
    linesFrom_newline (s := []) (fun _ hc => by cases hc), List.foldl_cons]
  exact congrArg (List.foldl line · (linesFrom [] s)) hdispatch

/-- Data of more than one line is not read as it was written: what is behind the first end of a line loses it. -/
theorem oneLine_of_feed_frame {e : Event} (he : e.Named) {r : Reader} (h : r.feed (frame e) = r.push e) : OneLine e.data := by
  by_contra hdata
  let a := e.data.takeWhile fun c => !isTerminator c
  have ha : OneLine a := fun c hc => by simpa using List.mem_takeWhile_imp hc
  obtain ⟨t, b, ht, hsplit⟩ : ∃ t b, isTerminator t = true ∧ e.data = a ++ t :: b := by
    cases hrest : e.data.dropWhile fun c => !isTerminator c with
    | nil =>
      have hall : e.data = a := by rw [← List.takeWhile_append_dropWhile (p := fun c => !isTerminator c) (l := e.data), hrest, List.append_nil]
      rw [hall] at hdata
      exact absurd ha hdata
    | cons t b =>
      refine ⟨t, b, ?_, by rw [← hrest, List.takeWhile_append_dropWhile]⟩
      have hhead := List.head?_dropWhile_not (fun c => !isTerminator c) e.data
      rw [hrest] at hhead
      simpa using hhead
  have hrest : "data: ".toList ++ e.data ++ "\n\n".toList ++ [] = ("data: ".toList ++ a) ++ t :: (b ++ "\n\n".toList) := by
    rw [hsplit]
    simp only [List.append_assoc, List.append_nil, List.cons_append]
  obtain ⟨r', hlines, hsuffix⟩ := linesFrom_terminated (oneLine_data.append ha) ht (b ++ "\n\n".toList)
  have hfeed := feed_event he r []
  rw [List.append_nil, h, hrest, hlines, List.foldl_cons, line_data] at hfeed
  have hsize := lines_size (linesFrom [] r') { r with type := e.type, data := r.data ++ a ++ ['\n'] }
  rw [← hfeed, size_push, hsplit] at hsize
  have hbehind := (length_linesFrom [] r').trans (Nat.add_le_add_left (hsuffix.sublist.countP_le) _)
  rw [List.countP_append] at hbehind
  have hb := List.countP_le_length (p := fun c => !isTerminator c) (l := b)
  have hnone : ("\n\n".toList).countP (fun c => !isTerminator c) = 0 := rfl
  unfold size at hsize
  simp only [List.length_append, List.length_cons, List.length_nil] at hsize hbehind
  omega

end EventStream
