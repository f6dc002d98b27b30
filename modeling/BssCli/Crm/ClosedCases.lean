import BssCli.Crm.Cases
import BssCli.Lib.Steps

/-!
# Closed cases

The tickets of a closed case are closed or cancelled. The guard that looks at them runs when
a case is resolved. A ticket can be opened after it, before the case is closed or later.
-/

namespace BssCli.Crm.Cases

open Fsm Steps

def ClosedOut (db : CaseDb) : Prop :=
  ∀ t ∈ db.tickets.rows, ∀ caseId ∈ t.caseId, ∀ c ∈ db.cases.find caseId, c.state = .closed → t.state ∈ terminal

instance (db : CaseDb) : Decidable (ClosedOut db) := inferInstanceAs (Decidable (∀ t ∈ _, ∀ caseId ∈ _, ∀ c ∈ _, _ → _))

/-- A resolved case that is closed now has no open ticket. -/
def ClosesEmpty (db : CaseDb) (caseId : String) (code : Option String) : Prop :=
  ∀ c ∈ db.cases.find caseId, c.state = .resolved → (code.or c.resolutionCode).getD "" ≠ "" →
    db.findOpenByCase caseId = []

instance (db : CaseDb) (caseId : String) (code : Option String) : Decidable (ClosesEmpty db caseId code) :=
  inferInstanceAs (Decidable (∀ c ∈ _, _ → _ → _))

/-- When an operation that is stored keeps closed cases out of the way: it opens no ticket on
a closed case, and closes no resolved case that has an open one. -/
def KeepsClosed (db : CaseDb) : CaseOp → Prop
  | .openTicket dir req id _ txOk =>
    txOk → checkOpenTicket dir req db = .ok () → db.tickets.find id = none →
      ∀ caseId ∈ req.caseId, ∀ c ∈ db.cases.find caseId, c.state ≠ .closed
  | .transitionCase caseId trigger code _ txOk => txOk → trigger = "close" → ClosesEmpty db caseId code
  | .closeCase caseId code _ closeOk _ _ => closeOk → ClosesEmpty db caseId (some code)
  | .openCase .. | .transitionTicket .. => True

instance (db : CaseDb) : (op : CaseOp) → Decidable (KeepsClosed db op)
  | .openTicket .. => inferInstanceAs (Decidable (_ → _ → _ → ∀ caseId ∈ _, ∀ c ∈ _, _))
  | .transitionCase .. => inferInstanceAs (Decidable (_ → _ → _))
  | .closeCase .. => inferInstanceAs (Decidable (_ → _))
  | .openCase .. | .transitionTicket .. => inferInstanceAs (Decidable True)

/-! ## One operation -/

section

variable {dir : Directory} {db db' : CaseDb} {now : Time}

theorem openCase_closedOut {req : OpenCase} {id : String} (hi : ClosedOut db)
    (h : openCase dir req id now db = .ok db') : ClosedOut db' := by
  obtain ⟨hins, htickets, -⟩ := openCase_eq_ok h
  intro t ht caseId hcase c hc hclosed
  rw [htickets] at ht
  rw [Option.mem_def, Table.find_insert hins] at hc
  split at hc
  · cases hc
    cases hclosed
  · exact hi t ht caseId hcase c hc hclosed

theorem openTicket_closedOut {req : OpenTicket} {id : String} (hi : ClosedOut db)
    (hc : ∀ caseId ∈ req.caseId, ∀ c ∈ db.cases.find caseId, c.state ≠ .closed)
    (h : openTicket dir req id now db = .ok db') : ClosedOut db' := by
  obtain ⟨-, hins, hcases, -⟩ := openTicket_eq_ok h
  intro t ht caseId hcase c hfind hclosed
  rw [hcases] at hfind
  rw [(Table.rows_insert hins).1, List.mem_append, List.mem_singleton] at ht
  rcases ht with ht | rfl
  · exact hi t ht caseId hcase c hfind hclosed
  · exact absurd hclosed (hc caseId hcase c hfind)

/-- Nothing leads out of a terminal state, so a ticket of a closed case stays. -/
theorem transitionTicket_closedOut {req : TransitionTicket} (hi : ClosedOut db)
    (h : transitionTicket dir req now db = .ok db') : ClosedOut db' := by
  obtain ⟨t, s, assignee, notes, resolvedAt, reason, hfind, hs, htickets, hcases, -⟩ := transitionTicket_eq_ok h
  intro u hu caseId hcase c hc hclosed
  rw [hcases] at hc
  rw [htickets] at hu
  obtain ⟨v, hv, rfl⟩ := List.mem_map.mp hu
  split at hcase
  · rename_i hid
    have hvt : v = t := by
      have hv' := db.tickets.find_of_mem hv
      rw [hid, hfind, Option.some.injEq] at hv'
      exact hv'.symm
    have hfinal := hi v hv caseId hcase c hc hclosed
    rw [hvt, mem_terminal_iff] at hfinal
    exact absurd hfinal (getNextState_edge hs).not_final
  · rename_i hid
    rw [if_neg hid]
    exact hi v hv caseId hcase c hc hclosed

theorem transitionCase_closedOut {caseId trigger : String} {code : Option String} (hi : ClosedOut db)
    (hc : trigger = "close" → ClosesEmpty db caseId code)
    (h : transitionCase caseId trigger code now db = .ok db') : ClosedOut db' := by
  obtain ⟨c, s, resolution, hfind, hguard, hs, hcases, -, htickets⟩ := transitionCase_eq_ok h
  have hclosesOpen : s = .closed → ∀ t ∈ db'.tickets.rows, t.caseId = some caseId → t.state ∈ terminal := by
    rintro rfl t ht hcase
    rcases closed_by hs with ⟨hresolved, rfl⟩ | rfl
    · have hcode : (code.or c.resolutionCode).getD "" ≠ "" := by
        rw [caseGuard, if_neg (by decide), if_pos rfl, bind_eq_ok] at hguard
        obtain ⟨⟨⟩, hcheck, -⟩ := hguard
        unfold checkResolutionCode at hcheck
        split at hcheck
        · cases hcheck
        · assumption
      have hnone := findOpenByCase_eq_nil.mp (hc rfl c hfind hresolved hcode)
      rw [htickets, if_neg (by decide)] at ht
      by_contra hopen
      exact hnone t ht ⟨hcase, hopen⟩
    · rw [htickets, if_pos ⟨rfl, rfl⟩] at ht
      obtain ⟨u, hu, rfl⟩ := List.mem_map.mp ht
      split at hcase
      · rename_i hopen
        rw [if_pos hopen]
        simp [TicketRow.cancel, terminal]
      · rename_i hnot
        rw [if_neg hnot]
        by_contra hopen
        exact hnot ⟨hcase, hopen⟩
  -- A ticket of another case is as it was, or it is cancelled with a case that it is not on.
  have hothers : ∀ t ∈ db'.tickets.rows, t.caseId ≠ some caseId → t ∈ db.tickets.rows := by
    intro t ht hne
    rw [htickets] at ht
    split at ht
    · obtain ⟨u, hu, rfl⟩ := List.mem_map.mp ht
      split at hne
      · rename_i hopen
        exact absurd hopen.1 hne
      · rename_i hnot
        rwa [if_neg hnot]
    · exact ht
  intro t ht k hk c' hc' hclosed
  rw [hcases, Option.mem_def, find_updateCase] at hc'
  split at hc'
  · rename_i hkc
    rw [hkc] at hk
    obtain ⟨c₀, -, rfl⟩ := Option.map_eq_some_iff.mp hc'
    exact hclosesOpen hclosed t ht hk
  · rename_i hkc
    refine hi t (hothers t ht ?_) k hk c' hc' hclosed
    rw [Option.mem_def] at hk
    rw [hk]
    exact fun heq => hkc (Option.some.inj heq)

theorem resolved_closesEmpty {caseId : String} {code code' : Option String}
    (h : transitionCase caseId "resolve" code now db = .ok db') : ClosesEmpty db' caseId code' := by
  obtain ⟨c, s, resolution, hfind, hguard, hs, -, -, htickets⟩ := transitionCase_eq_ok h
  rintro - - - -
  rw [if_neg (by simp)] at htickets
  have hnone := findOpenByCase_eq_nil.mp (caseGuard_resolve hguard)
  rw [(db.cases.find_some hfind).2] at hnone
  rw [findOpenByCase_eq_nil, htickets]
  exact hnone

end

theorem closeCase_closedOut {db : CaseDb} {caseId code : String} {resolveOk closeOk : Bool} {resolvedAt closedAt : Time}
    (hi : ClosedOut db) (hc : closeOk → ClosesEmpty db caseId (some code)) :
    ClosedOut (closeCase caseId code resolveOk closeOk resolvedAt closedAt db).1 := by
  refine closeCase_keeps hi (fun db' hres => ?_) fun hok db' h => transitionCase_closedOut hi (fun _ => hc hok) h
  -- What is closed right after its resolution is empty.
  have hi' : ClosedOut db' := transitionCase_closedOut hi (fun h => absurd h (by decide)) hres
  exact ⟨hi', fun db'' h => transitionCase_closedOut hi' (fun _ => resolved_closesEmpty hres) h⟩

theorem after_closedOut {db : CaseDb} (hi : ClosedOut db) {op : CaseOp} (hc : KeepsClosed db op) :
    ClosedOut (db.after op) := by
  cases op with
  | openCase dir req id now txOk => exact runTx_keeps hi fun _ _ h => openCase_closedOut hi h
  | transitionCase caseId trigger code now txOk =>
    exact runTx_keeps hi fun hok _ h => transitionCase_closedOut hi (hc hok) h
  | closeCase caseId code resolveOk closeOk resolvedAt closedAt => exact closeCase_closedOut hi hc
  | openTicket dir req id now txOk =>
    refine runTx_keeps hi fun hok _ h => openTicket_closedOut hi ?_ h
    obtain ⟨hcheck, hins, -⟩ := openTicket_eq_ok h
    exact hc hok hcheck (Table.rows_insert hins).2
  | transitionTicket dir req now txOk => exact runTx_keeps hi fun _ _ h => transitionTicket_closedOut hi h

/-! ## An operation that does not meet the condition -/

section

variable {dir : Directory} {db : CaseDb}

theorem openTicket_onClosed {req : OpenTicket} {id caseId : String} {c : CaseRow}
    (hcheck : checkOpenTicket dir req db = .ok ()) (hfree : db.tickets.find id = none)
    (hcase : caseId ∈ req.caseId) (hfind : c ∈ db.cases.find caseId) (hclosed : c.state = .closed) :
    ¬ ClosedOut (runTx true db (openTicket dir req id now db)).1 := by
  obtain ⟨db', hok⟩ := openTicket_isOk hcheck hfree now
  obtain ⟨-, hins, hcases, -⟩ := openTicket_eq_ok hok
  rw [hok]
  intro hi
  have hmem : newTicket req id now ∈ db'.tickets.rows := by simp [(Table.rows_insert hins).1]
  have hfinal : TicketState.opened ∈ terminal := hi _ hmem caseId hcase c (hcases ▸ hfind) hclosed
  simp [terminal] at hfinal

theorem transitionCase_notEmpty (now : Time) {caseId : String} {code : Option String} (h : ¬ ClosesEmpty db caseId code) :
    ¬ ClosedOut (runTx true db (transitionCase caseId "close" code now db)).1 := by
  simp only [ClosesEmpty, not_forall] at h
  obtain ⟨c, hfind, hresolved, hcode, hne⟩ := h
  obtain ⟨t, ht⟩ := List.exists_mem_of_ne_nil _ hne
  obtain ⟨hmem, hcase, hopen⟩ := mem_findOpenByCase.mp ht
  have hok := closeResolved_eq_ok hfind hresolved hcode now
  rw [hok]
  intro hi
  refine hopen (hi t hmem caseId hcase (c.write .closed (code.or c.resolutionCode) (some now)) ?_ rfl)
  rw [Option.mem_def, runTx, if_pos rfl, transitioned, logInteraction_cases, stage_cases, find_updateCase, if_pos rfl,
    hfind]
  rfl

end

/-- One operation keeps closed cases without open tickets exactly when it meets the condition. -/
theorem after_closedOut_iff {db : CaseDb} (hi : ClosedOut db) (op : CaseOp) :
    ClosedOut (db.after op) ↔ KeepsClosed db op := by
  refine ⟨fun hafter => ?_, after_closedOut hi⟩
  cases op with
  | openCase dir req id now txOk => trivial
  | transitionTicket dir req now txOk => trivial
  | openTicket dir req id now txOk =>
    rintro rfl hcheck hfree caseId hcase c hfind hclosed
    exact openTicket_onClosed hcheck hfree hcase hfind hclosed hafter
  | transitionCase caseId trigger code now txOk =>
    rintro rfl rfl
    by_contra hne
    exact transitionCase_notEmpty now hne hafter
  | closeCase caseId code resolveOk closeOk resolvedAt closedAt =>
    rintro rfl c hfind hresolved hcode
    by_contra hne
    have hnot : ¬ ClosesEmpty db caseId (some code) := fun h => hne (h c hfind hresolved hcode)
    refine transitionCase_notEmpty closedAt hnot ?_
    have hgate : isValidTransition caseTransitions .resolved "resolve" = false := rfl
    simpa only [CaseDb.after, closeCase, getCase_eq_ok.mpr hfind, hresolved, hgate, Bool.false_eq_true, if_false]
      using hafter

theorem empty_closedOut : ClosedOut .empty := by simp [ClosedOut, CaseDb.empty, Table.empty]

/-- In every run of such operations a closed case has no open ticket, and the next operation
breaks that exactly when it does not meet the condition. -/
theorem closed_case_without_open_tickets (ops : List CaseOp) (db : CaseDb)
    (h : exec (guarded KeepsClosed CaseDb.step) .empty ops = some db) :
    ClosedOut db ∧ ∀ op, ClosedOut (db.after op) ↔ KeepsClosed db op := by
  have hi : ClosedOut db := by
    refine guarded_inv ?_ empty_closedOut h
    intro db op db' hi hkeeps hstep
    cases hstep
    exact after_closedOut hi hkeeps
  exact ⟨hi, after_closedOut_iff hi⟩

/-- A case with one ticket is resolved when the ticket is cancelled, and closed. -/
theorem closed_case_after_cancel :
    let db := (exec (guarded KeepsClosed CaseDb.step) .empty
      [sampleCase, sampleTicket, sampleTrigger "cancel", .closeCase "CASE-1" "fixed" true true 30 40]).get (by decide)
    ((db.cases.find "CASE-1").map CaseRow.state = some .closed ∧
      (db.tickets.find "TKT-1").map TicketRow.state = some .cancelled) ∧
    ClosedOut db ∧ ∀ op, ClosedOut (db.after op) ↔ KeepsClosed db op := by
  intro db
  exact ⟨by decide, closed_case_without_open_tickets _ db (Option.some_get _).symm⟩

/-- A ticket is opened between the resolution of the case and its close, and on the closed case. -/
theorem closed_case_with_open_tickets :
    ∃ db db', exec CaseDb.step .empty
        [sampleCase, .transitionCase "CASE-1" "resolve" none 5 true, sampleTicket,
         .closeCase "CASE-1" "fixed" true true 30 40] = some db ∧
      exec CaseDb.step .empty [sampleCase, .closeCase "CASE-1" "fixed" true true 5 6, sampleTicket] = some db' ∧
      ¬ ClosedOut db ∧ ¬ ClosedOut db' :=
  ⟨_, _, rfl, rfl, by decide, by decide⟩

end BssCli.Crm.Cases
