import BssCli.Crm.Cases
import BssCli.Lib.Steps
import BssCli.Lib.Walk

/-!
# The history of a ticket

A ticket writes one history row when it is opened and one for each transition. The tickets
that a case takes with it are cancelled without a row.
-/

namespace BssCli.Crm.Cases

open Fsm Steps Walk

def CaseDb.historyOf (db : CaseDb) (ticketId : String) : List TicketHistoryRow :=
  db.history.filter (·.ticketId = ticketId)

/-- The ticket is opened, or it goes along an edge of its table. -/
def TicketHistoryRow.Legal (r : TicketHistoryRow) : Prop :=
  match r.fromState with
  | none => r.toState = .opened
  | some s => Edge ticketTransitions s r.toState

/-- The rows lead from nothing to the state that the ticket is in. -/
def TicketRow.PathOf (rows : List TicketHistoryRow) (t : TicketRow) : Prop :=
  IsWalk TicketHistoryRow.fromState (fun r => some r.toState) none rows (some t.state)

structure FaithfulHistory (db : CaseDb) : Prop where
  path : ∀ t ∈ db.tickets.rows, t.PathOf (db.historyOf t.id)
  legal : ∀ r ∈ db.history, r.Legal
  closedAt : ∀ t ∈ db.tickets.rows, t.closedAt.isSome ↔ t.state = .closed ∨ t.state = .cancelled

/-- A case that is cancelled has no open ticket to take with it. -/
def CancelsEmpty (db : CaseDb) (caseId : String) : Prop :=
  ∀ c ∈ db.cases.find caseId, isValidTransition caseTransitions c.state "cancel" → db.findOpenByCase caseId = []

instance (db : CaseDb) (caseId : String) : Decidable (CancelsEmpty db caseId) :=
  inferInstanceAs (Decidable (∀ c ∈ _, _ → _))

def KeepsHistory (db : CaseDb) : CaseOp → Prop
  | .transitionCase caseId trigger _ _ txOk => txOk → trigger = "cancel" → CancelsEmpty db caseId
  | _ => True

instance (db : CaseDb) : (op : CaseOp) → Decidable (KeepsHistory db op)
  | .transitionCase .. => inferInstanceAs (Decidable (_ → _ → _))
  | .openCase .. | .closeCase .. | .openTicket .. | .transitionTicket .. => inferInstanceAs (Decidable True)

/-- No history without a ticket. -/
structure HistoryInv (db : CaseDb) : Prop extends FaithfulHistory db where
  known : ∀ r ∈ db.history, r.ticketId ∈ db.tickets.rows.map TicketRow.id

/-! ## One operation -/

section

variable {dir : Directory} {db db' : CaseDb} {now : Time}

theorem HistoryInv.congr (hi : HistoryInv db) (hrows : db'.tickets.rows = db.tickets.rows)
    (hhistory : db'.history = db.history) : HistoryInv db' := by
  refine ⟨⟨?_, ?_, ?_⟩, ?_⟩
  · simpa only [hrows, CaseDb.historyOf, hhistory] using hi.path
  · simpa only [hhistory] using hi.legal
  · simpa only [hrows] using hi.closedAt
  · simpa only [hrows, hhistory] using hi.known

theorem historyOf_append {ticketId : String} {r : TicketHistoryRow} (h : db'.history = db.history ++ [r]) :
    db'.historyOf ticketId = db.historyOf ticketId ++ if r.ticketId = ticketId then [r] else [] := by
  simp [CaseDb.historyOf, h, List.filter_singleton]

theorem openTicket_historyInv {req : OpenTicket} {id : String} (hi : HistoryInv db)
    (h : openTicket dir req id now db = .ok db') : HistoryInv db' := by
  obtain ⟨-, hins, -, hhistory⟩ := openTicket_eq_ok h
  obtain ⟨hrows, hfree⟩ := Table.rows_insert hins
  have hnew : id ∉ db.tickets.rows.map TicketRow.id := db.tickets.find_eq_none.mp hfree
  refine ⟨⟨?_, ?_, ?_⟩, ?_⟩
  · intro t ht
    rw [historyOf_append hhistory]
    rw [hrows, List.mem_append, List.mem_singleton] at ht
    rcases ht with ht | rfl
    · have hne : id ≠ t.id := fun heq => hnew (heq ▸ List.mem_map_of_mem ht)
      simpa [hne] using hi.path t ht
    · have hnone : db.historyOf (newTicket req id now).id = [] := by
        rw [CaseDb.historyOf, List.filter_eq_nil_iff]
        intro r hr heq
        have hknown := hi.known r hr
        rw [of_decide_eq_true heq] at hknown
        exact hnew hknown
      rw [hnone]
      simp [TicketRow.PathOf, newTicket]
  · intro r hr
    rw [hhistory, List.mem_append, List.mem_singleton] at hr
    rcases hr with hr | rfl
    · exact hi.legal r hr
    · rfl
  · intro t ht
    rw [hrows, List.mem_append, List.mem_singleton] at ht
    rcases ht with ht | rfl
    · exact hi.closedAt t ht
    · simp [newTicket]
  · intro r hr
    rw [hhistory, List.mem_append, List.mem_singleton] at hr
    rw [hrows, List.map_append, List.mem_append]
    rcases hr with hr | rfl
    · exact Or.inl (hi.known r hr)
    · exact Or.inr (by simp [newTicket])

theorem transitionTicket_historyInv {req : TransitionTicket} (hi : HistoryInv db)
    (h : transitionTicket dir req now db = .ok db') : HistoryInv db' := by
  obtain ⟨t, s, assignee, notes, resolvedAt, reason, hfind, hs, htickets, -, hhistory⟩ := transitionTicket_eq_ok h
  obtain ⟨ht, hid⟩ := db.tickets.find_some hfind
  have hedge := getNextState_edge hs
  -- A ticket of the new table is one of the old table, or the one that has moved.
  have hrow : ∀ u ∈ db'.tickets.rows, (u ∈ db.tickets.rows ∧ u.id ≠ req.ticketId) ∨
      (u.id = req.ticketId ∧ u.state = s ∧ u.closedAt = if s = .closed ∨ s = .cancelled then some now else t.closedAt) := by
    intro u hu
    rw [htickets] at hu
    obtain ⟨v, hv, rfl⟩ := List.mem_map.mp hu
    split
    · rename_i hvid
      exact Or.inr ⟨hvid, rfl, rfl⟩
    · rename_i hvid
      exact Or.inl ⟨hv, hvid⟩
  have hids : db'.tickets.rows.map TicketRow.id = db.tickets.rows.map TicketRow.id := by
    rw [htickets]
    simp only [CaseDb.updateTicket, Table.update, Table.map, List.map_map]
    refine List.map_congr_left fun u _ => ?_
    simp only [Function.comp_apply]
    split <;> rfl
  refine ⟨⟨?_, ?_, ?_⟩, ?_⟩
  · intro u hu
    rw [historyOf_append hhistory]
    rcases hrow u hu with ⟨hu, hne⟩ | ⟨hu, hstate, -⟩
    · simpa [hne.symm] using hi.path u hu
    · have hpath := hi.path t ht
      rw [hid] at hpath
      rw [hu, if_pos rfl, TicketRow.PathOf, hstate]
      exact isWalk_append hpath (isWalk_cons.mpr ⟨rfl, rfl⟩)
  · intro r hr
    rw [hhistory, List.mem_append, List.mem_singleton] at hr
    rcases hr with hr | rfl
    · exact hi.legal r hr
    · exact hedge
  · intro u hu
    rcases hrow u hu with ⟨hu, -⟩ | ⟨-, hstate, hclosedAt⟩
    · exact hi.closedAt u hu
    · -- Nothing leads out of a terminal state, so the ticket was not closed before.
      have hopen : ¬ (t.state = .closed ∨ t.state = .cancelled) := by
        intro hterminal
        exact hedge.not_final ((mem_terminal_iff _).mp (by simpa [terminal] using hterminal))
      have hnone := (hi.closedAt t ht).not.mpr hopen
      rw [hclosedAt, hstate]
      split <;> simp_all
  · intro r hr
    rw [hhistory, List.mem_append, List.mem_singleton] at hr
    rw [hids]
    rcases hr with hr | rfl
    · exact hi.known r hr
    · exact hid ▸ List.mem_map_of_mem ht

theorem transitionCase_historyInv {caseId trigger : String} {code : Option String} (hi : HistoryInv db)
    (hc : trigger = "cancel" → CancelsEmpty db caseId) (h : transitionCase caseId trigger code now db = .ok db') :
    HistoryInv db' := by
  obtain ⟨c, s, resolution, hfind, -, hs, -, hhistory, htickets⟩ := transitionCase_eq_ok h
  refine hi.congr ?_ hhistory
  rw [htickets]
  split
  · rename_i hcancel
    obtain ⟨rfl, rfl⟩ := hcancel
    have hvalid := getNextState_isSome.mp (Option.isSome_of_eq_some hs)
    have hnone := findOpenByCase_eq_nil.mp (hc rfl c hfind hvalid)
    rw [List.map_congr_left fun t ht => if_neg (hnone t ht), List.map_id']
  · rfl

theorem transitionCase_close {caseId trigger : String} {code : Option String} (hi : HistoryInv db)
    (hne : trigger ≠ "cancel") (h : transitionCase caseId trigger code now db = .ok db') : HistoryInv db' :=
  transitionCase_historyInv hi (fun heq => absurd heq hne) h

end

theorem after_historyInv {db : CaseDb} (hi : HistoryInv db) {op : CaseOp} (hc : KeepsHistory db op) :
    HistoryInv (db.after op) := by
  cases op with
  | openCase dir req id now txOk =>
    refine runTx_keeps hi fun _ db' h => ?_
    obtain ⟨-, htickets, hhistory⟩ := openCase_eq_ok h
    exact hi.congr (by rw [htickets]) hhistory
  | transitionCase caseId trigger code now txOk =>
    exact runTx_keeps hi fun hok _ h => transitionCase_historyInv hi (hc hok) h
  | closeCase caseId code resolveOk closeOk resolvedAt closedAt =>
    refine closeCase_keeps hi (fun db' hres => ?_) fun _ _ h => transitionCase_close hi (by decide) h
    have hi' := transitionCase_close hi (by decide) hres
    exact ⟨hi', fun _ h => transitionCase_close hi' (by decide) h⟩
  | openTicket dir req id now txOk => exact runTx_keeps hi fun _ _ h => openTicket_historyInv hi h
  | transitionTicket dir req now txOk => exact runTx_keeps hi fun _ _ h => transitionTicket_historyInv hi h

/-- The rows of a ticket that is cancelled with its case still end in the state before. -/
theorem cancel_not_faithful {db : CaseDb} (hi : HistoryInv db) (now : Time) {caseId : String} {code : Option String}
    (h : ¬ CancelsEmpty db caseId) :
    ¬ FaithfulHistory (runTx true db (transitionCase caseId "cancel" code now db)).1 := by
  simp only [CancelsEmpty, not_forall] at h
  obtain ⟨c, hfind, hvalid, hne⟩ := h
  obtain ⟨t, ht⟩ := List.exists_mem_of_ne_nil _ hne
  obtain ⟨hmem, hopen⟩ := mem_findOpenByCase.mp ht
  obtain ⟨db', hok⟩ := cancelCase_isOk hfind hvalid code now
  obtain ⟨c', s, -, hfind', -, hs, -, hhistory, htickets⟩ := transitionCase_eq_ok hok
  rw [if_pos ⟨cancel_closes hs, rfl⟩] at htickets
  rw [hok]
  intro hfaithful
  have hcancelled : t.cancel now ∈ db'.tickets.rows := by
    rw [htickets]
    exact List.mem_map.mpr ⟨t, hmem, if_pos hopen⟩
  have hpath : (t.cancel now).PathOf (db'.historyOf t.id) := hfaithful.path _ hcancelled
  have hbefore : t.PathOf (db'.historyOf t.id) := by
    simpa only [CaseDb.historyOf, hhistory] using hi.path t hmem
  have hstate : t.state = .cancelled := Option.some.inj (isWalk_unique hbefore hpath)
  exact hopen.2 (by simp [hstate, terminal])

theorem after_faithful_iff {db : CaseDb} (hi : HistoryInv db) (op : CaseOp) :
    FaithfulHistory (db.after op) ↔ KeepsHistory db op := by
  refine ⟨fun hafter => ?_, fun hc => (after_historyInv hi hc).toFaithfulHistory⟩
  cases op with
  | transitionCase caseId trigger code now txOk =>
    rintro rfl rfl
    by_contra hne
    exact cancel_not_faithful hi now hne hafter
  | _ => trivial

theorem empty_historyInv : HistoryInv .empty := by
  refine ⟨⟨?_, ?_, ?_⟩, ?_⟩ <;> simp [CaseDb.empty, Table.empty]

/-- In every run of such operations the history rows of a ticket lead along its table to the
state it is in, and the next operation breaks that exactly when it does not meet the condition. -/
theorem ticket_history_faithful (ops : List CaseOp) (db : CaseDb)
    (h : exec (guarded KeepsHistory CaseDb.step) .empty ops = some db) :
    FaithfulHistory db ∧ ∀ op, FaithfulHistory (db.after op) ↔ KeepsHistory db op := by
  have hi : HistoryInv db := by
    refine guarded_inv ?_ empty_historyInv h
    intro db op db' hi hkeeps hstep
    cases hstep
    exact after_historyInv hi hkeeps
  exact ⟨hi.toFaithfulHistory, after_faithful_iff hi⟩

/-- The one ticket of a case is resolved and reopened, and cancelled before the case is. -/
theorem ticket_history_reopened :
    let db := (exec (guarded KeepsHistory CaseDb.step) .empty
      [sampleCase, sampleTicket, sampleTrigger "ack", sampleTrigger "start", sampleTrigger "resolve",
       sampleTrigger "reopen", sampleTrigger "cancel", sampleCancel]).get (by decide)
    (db.historyOf "TKT-1").map TicketHistoryRow.toState =
      [.opened, .acknowledged, .inProgress, .resolved, .inProgress, .cancelled] ∧
    FaithfulHistory db ∧ ∀ op, FaithfulHistory (db.after op) ↔ KeepsHistory db op := by
  intro db
  exact ⟨by decide, ticket_history_faithful _ db (Option.some_get _).symm⟩

/-- A case takes a resolved ticket with it. The ticket is cancelled, and its history says resolved. -/
theorem ticket_cancelled_without_row :
    ∃ db t, exec CaseDb.step .empty
        [sampleCase, sampleTicket, sampleTrigger "ack", sampleTrigger "start", sampleTrigger "resolve",
         sampleCancel] = some db ∧
      db.tickets.find "TKT-1" = some t ∧ t.state = .cancelled ∧
      (db.historyOf "TKT-1").map TicketHistoryRow.toState = [.opened, .acknowledged, .inProgress, .resolved] ∧
      ¬ FaithfulHistory db := by
  refine ⟨_, _, rfl, rfl, rfl, by decide, ?_⟩
  intro hfaithful
  have hpath := hfaithful.path _ (List.mem_singleton_self _)
  exact absurd hpath (by unfold TicketRow.PathOf; decide)

end BssCli.Crm.Cases
