import BssCli.Knowledge.Chunker
import BssCli.Lib.Table

/-!
# The knowledge index

`reindex` walks the listed files, and writes a row for each chunk whose hash or time is not the one that the table had when it began.
The column of times holds microseconds.
-/

open Text

namespace BssCli.Knowledge

/-! ## The list of paths -/

def indexedPaths : List (List Char) :=
  ["CLAUDE.md", "ARCHITECTURE.md", "DECISIONS.md", "TOOL_SURFACE.md", "ROADMAP.md", "CONTRIBUTING.md", "docs/HANDBOOK.md",
    "docs/runbooks/add-product-offering.md", "docs/runbooks/adding-tool-to-customer-self-serve.md",
    "docs/runbooks/api-token-rotation.md", "docs/runbooks/chat-cap-tripped.md", "docs/runbooks/chat-escalated-case.md",
    "docs/runbooks/chat-ownership-trip.md", "docs/runbooks/chat-transcript-retention.md", "docs/runbooks/cny-promo.md",
    "docs/runbooks/cockpit.md", "docs/runbooks/jaeger-byoi.md", "docs/runbooks/migrating-customers-to-new-price.md",
    "docs/runbooks/mnp-port-flows.md", "docs/runbooks/payment-idempotency.md", "docs/runbooks/portal-auth.md",
    "docs/runbooks/post-login-self-serve-ops.md", "docs/runbooks/promo-codes.md", "docs/runbooks/snapshot-regeneration.md",
    "docs/runbooks/stripe-cutover.md", "docs/runbooks/three-provider-sandbox-soak.md"].map String.toList

def kindFor (path : List Char) : Option String :=
  if path = "CLAUDE.md".toList then some "doctrine"
  else if path = "ARCHITECTURE.md".toList then some "architecture"
  else if path = "DECISIONS.md".toList then some "decisions"
  else if path = "TOOL_SURFACE.md".toList then some "tool_surface"
  else if path = "ROADMAP.md".toList then some "roadmap"
  else if path = "CONTRIBUTING.md".toList then some "contributing"
  else if path = "docs/HANDBOOK.md".toList then some "handbook"
  else if "docs/runbooks/".toList.isPrefixOf path then some "runbook"
  else none

/-! ## The table -/

abbrev Key := List Char × List Char

def Chunk.key (c : Chunk) : Key := (c.sourcePath, c.anchor)

/-- What lies outside: Unicode, SHA-256 in hex, and what the database refuses. -/
structure Env where
  lang : Unicode
  digest : List UInt8 → List Char
  /-- Path, anchor, content and time of a row. -/
  accepts : Key → List Char → ℤ → Bool

variable (env : Env)

def chunkId (key : Key) : List Char := (env.digest (utf8 (key.1 ++ '|' :: key.2))).take 32

def contentHash (content : List Char) : List Char := env.digest (utf8 content)

/-- A row has the hash of its content. Its time is in microseconds from 2000 on. -/
structure DocChunk where
  key : Key
  headingPath : List Char
  kind : String
  content : List Char
  contentHash : List Char
  sourceMtime : ℤ
  hashed : contentHash = Knowledge.contentHash env content

/-- `knowledge.doc_chunk`, by path and anchor. The primary key is the id. -/
abbrev DocTable := Table (@DocChunk.key env) (chunkId env)

/-- 2000, in nanoseconds from 1970. -/
def pgEpoch : ℤ := 946684800000000000

/-- `num_microseconds` truncates. -/
def pgMicros (t : ℤ) : ℤ := (t - pgEpoch).tdiv 1000

variable {env}

/-- The time as it is read back. -/
def DocChunk.mtime (r : DocChunk env) : ℤ := pgEpoch + 1000 * r.sourceMtime

/-- What `ON CONFLICT (id) DO UPDATE` keeps of the row that is there. -/
def DocChunk.keep (r excluded : DocChunk env) : DocChunk env := { excluded with key := r.key }

/-- `INSERT … ON CONFLICT (id) DO UPDATE` -/
def upsert (t : DocTable env) (r : DocChunk env) : DocTable env :=
  match t.insert r with
  | some t' => t'
  | none => t.map (fun s => if chunkId env s.key = chunkId env r.key then s.keep r else s) fun s => by split <;> rfl

/-- `DELETE … WHERE source_path = $1 AND anchor = $2` -/
def delete (t : DocTable env) (key : Key) : DocTable env :=
  ⟨t.rows.filter fun r => r.key ≠ key, t.nodup.sublist ((List.filter_sublist).map _)⟩

/-! ## The run -/

structure ReindexReport where
  added : ℕ := 0
  updated : ℕ := 0
  deleted : ℕ := 0
  skippedUnchanged : ℕ := 0
  filesSeen : ℕ := 0

/-- A file that exists. Either read may fail. -/
structure File where
  modified : Option ℤ
  text : Option (List Char)

abbrev Files := List Char → Option File

/-- The loop's variables. -/
structure Run (env : Env) where
  table : DocTable env
  report : ReindexReport
  seenKeys : List Key

/-- The hash and the time that the table had before, with nothing changed in them. -/
def unchanged (existing : DocTable env) (mtime : Option ℤ) (c : Chunk) : Bool :=
  match existing.find c.key with
  | some p => p.contentHash = contentHash env c.content && some p.mtime = mtime
  | none => false

/-- `None` is an error of the database, or of a missing time. -/
def indexChunk (existing : DocTable env) (force : Bool) (mtime : Option ℤ) (s : Run env) (c : Chunk) : Option (Run env) :=
  let seen := c.key :: s.seenKeys
  if !force && unchanged existing mtime c then
    some { s with seenKeys := seen, report.skippedUnchanged := s.report.skippedUnchanged + 1 }
  else
    match mtime with
    | none => none
    | some t =>
      if env.accepts c.key c.content t then
        let row : DocChunk env := ⟨c.key, c.headingPath, (kindFor c.sourcePath).getD "runbook", c.content,
          contentHash env c.content, pgMicros t, rfl⟩
        let report :=
          if (existing.find c.key).isNone then { s.report with added := s.report.added + 1 }
          else { s.report with updated := s.report.updated + 1 }
        some ⟨upsert s.table row, report, seen⟩
      else none

def indexFile (existing : DocTable env) (force : Bool) (fs : Files) (s : Run env) (relPath : List Char) : Option (Run env) :=
  match fs relPath with
  | none => some s
  | some file =>
    match file.text with
    | none => none
    | some text =>
      (chunkMarkdown env.lang relPath text).foldlM (indexChunk existing force file.modified)
        { s with report.filesSeen := s.report.filesSeen + 1 }

/-- `None` is an error, and rolls the transaction back. -/
def reindex (t : DocTable env) (fs : Files) (force : Bool) : Option (DocTable env × ReindexReport) :=
  (indexedPaths.foldlM (indexFile t force fs) ⟨t, {}, []⟩).map fun s =>
    let gone := (t.rows.map DocChunk.key).filter fun key => key ∉ s.seenKeys
    (gone.foldl delete s.table, { s.report with deleted := s.report.deleted + gone.length })

/-! ## The chunks of the files -/

/-- The chunks of a file, with the file's time. -/
def fileChunks (lang : Unicode) (fs : Files) (path : List Char) : List (Option ℤ × Chunk) :=
  match fs path with
  | some ⟨modified, some text⟩ => (chunkMarkdown lang path text).map fun c => (modified, c)
  | _ => []

/-- Every chunk of every file. -/
def timedChunks (lang : Unicode) (fs : Files) : List (Option ℤ × Chunk) := indexedPaths.flatMap (fileChunks lang fs)

theorem mem_timedChunks {lang : Unicode} {fs : Files} {x : Option ℤ × Chunk} (h : x ∈ timedChunks lang fs) :
    ∃ file, fs x.2.sourcePath = some file ∧ x.1 = file.modified := by
  obtain ⟨path, -, hx⟩ := List.mem_flatMap.mp h
  unfold fileChunks at hx
  split at hx
  · rename_i modified text hfile
    obtain ⟨c, hc, rfl⟩ := List.mem_map.mp hx
    rw [chunk_sourcePath lang path text c hc]
    exact ⟨_, hfile, rfl⟩
  · cases hx

/-- Chunks of one key are of one file. -/
theorem time_eq_of_key {lang : Unicode} {fs : Files} {x y : Option ℤ × Chunk} (hx : x ∈ timedChunks lang fs)
    (hy : y ∈ timedChunks lang fs) (hkey : x.2.key = y.2.key) : x.1 = y.1 := by
  obtain ⟨file, hfile, hx⟩ := mem_timedChunks hx
  obtain ⟨file', hfile', hy⟩ := mem_timedChunks hy
  rw [show x.2.sourcePath = y.2.sourcePath from congrArg Prod.fst hkey, hfile'] at hfile
  rw [hx, hy, Option.some.inj hfile]

/-! ## Times in the column -/

/-- A time as the column has it. -/
def pgTime (t : ℤ) : ℤ := pgEpoch + 1000 * pgMicros t

theorem pgTime_eq_iff (t : ℤ) : pgTime t = t ↔ t % 1000 = 0 := by
  have hsplit := Int.mul_tdiv_add_tmod (t - pgEpoch) 1000
  have hmod : (t - pgEpoch).tmod 1000 = 0 ↔ t % 1000 = 0 := by
    rw [← Int.dvd_iff_tmod_eq_zero]
    unfold pgEpoch
    omega
  unfold pgTime pgMicros
  omega

theorem DocChunk.pgTime_mtime (r : DocChunk env) : pgTime r.mtime = r.mtime := by
  rw [pgTime_eq_iff]
  unfold DocChunk.mtime pgEpoch
  omega

/-! ## The table after a write -/

theorem find_upsert {t : DocTable env} {r : DocChunk env} (hids : ∀ s ∈ t.rows, chunkId env s.key = chunkId env r.key → s.key = r.key)
    (key : Key) : (upsert t r).find key = if key = r.key then some r else t.find key := by
  unfold upsert
  split
  · rename_i t' hinsert
    rw [Table.find_insert hinsert]
    by_cases hkey : r.key = key
    · rw [if_pos hkey, if_pos hkey.symm]
    · rw [if_neg hkey, if_neg (Ne.symm hkey)]
  · rename_i hinsert
    -- The row with the id is the row with the key.
    obtain ⟨s, hs, hid⟩ : ∃ s ∈ t.rows, chunkId env s.key = chunkId env r.key := by
      by_contra hnone
      have hsome : (t.insert r).isSome := Table.insert_isSome t |>.mpr fun s hs hid => hnone ⟨s, hs, hid⟩
      rw [hinsert] at hsome
      cases hsome
    have hskey := hids s hs hid
    rw [Table.find_map]
    by_cases hkey : key = r.key
    · have hfind : t.find key = some s := by
        rw [hkey, ← hskey]
        exact t.find_of_mem hs
      rw [if_pos hkey, hfind, Option.map_some, if_pos hid]
      unfold DocChunk.keep
      rw [hskey]
    · rw [if_neg hkey]
      cases hfind : t.find key with
      | none => rfl
      | some other =>
        obtain ⟨hother, hotherKey⟩ := t.find_some hfind
        have hne : ¬ chunkId env other.key = chunkId env r.key :=
          fun hother' => hkey (hotherKey ▸ hids other hother hother')
        rw [Option.map_some, if_neg hne]

theorem keys_upsert {t : DocTable env} {r s : DocChunk env} (h : s ∈ (upsert t r).rows) :
    s.key ∈ t.rows.map DocChunk.key ∨ s.key = r.key := by
  unfold upsert at h
  split at h
  · rename_i t' hinsert
    rw [(Table.rows_insert hinsert).1] at h
    rcases List.mem_append.mp h with h | h
    · exact .inl (List.mem_map_of_mem h)
    · exact .inr (by rw [List.mem_singleton.mp h])
  · obtain ⟨u, hu, rfl⟩ := List.mem_map.mp h
    refine .inl ?_
    split
    · exact List.mem_map.mpr ⟨u, hu, rfl⟩
    · exact List.mem_map_of_mem hu

theorem rows_foldl_delete (keys : List Key) (t : DocTable env) :
    (keys.foldl delete t).rows = t.rows.filter fun r => r.key ∉ keys := by
  induction keys generalizing t with
  | nil => simp
  | cons key keys ih =>
    rw [List.foldl_cons, ih]
    unfold delete
    rw [List.filter_filter]
    refine List.filter_congr fun r _ => ?_
    by_cases hkey : r.key = key <;> simp [hkey]

/-! ## One chunk -/

/-- Nothing that stands in the table or in the files has the id or the hash of something else. -/
structure NoCollisions (t : DocTable env) (fs : Files) : Prop where
  ids : ∀ k ∈ t.rows.map DocChunk.key ++ (timedChunks env.lang fs).map fun x => x.2.key,
    ∀ k' ∈ t.rows.map DocChunk.key ++ (timedChunks env.lang fs).map fun x => x.2.key, chunkId env k = chunkId env k' → k = k'
  hashes : ∀ c ∈ t.rows.map DocChunk.content ++ (timedChunks env.lang fs).map fun x => x.2.content,
    ∀ c' ∈ t.rows.map DocChunk.content ++ (timedChunks env.lang fs).map fun x => x.2.content,
      contentHash env c = contentHash env c' → c = c'

/-- The row has the content and the time of the chunk. -/
def Holds (r : DocChunk env) (x : Option ℤ × Chunk) : Prop := r.content = x.2.content ∧ ∃ τ, x.1 = some τ ∧ r.mtime = pgTime τ

/-- What the loop has done when it has gone through the chunks. -/
structure Progress (t : DocTable env) (force : Bool) (seen : List (Option ℤ × Chunk)) (s : Run env) : Prop where
  seenKeys : ∀ key, key ∈ s.seenKeys ↔ ∃ x ∈ seen, x.2.key = key
  untouched : ∀ key, (∀ x ∈ seen, x.2.key ≠ key) → s.table.find key = t.find key
  keys : ∀ r ∈ s.table.rows, r.key ∈ t.rows.map DocChunk.key ∨ ∃ x ∈ seen, x.2.key = r.key
  written : ∀ x ∈ seen, ∃ r, s.table.find x.2.key = some r ∧ ∃ y ∈ seen, y.2.key = x.2.key ∧ Holds r y
  counted : s.report.added = 0 ∧ s.report.updated = 0 ↔ ∀ x ∈ seen, (!force && unchanged t x.1 x.2) = true
  deleted : s.report.deleted = 0

theorem progress_start (t : DocTable env) (force : Bool) : Progress t force [] ⟨t, {}, []⟩ where
  seenKeys key := by simp
  untouched _ _ := rfl
  keys r hr := .inl (List.mem_map_of_mem hr)
  written x hx := by cases hx
  counted := by simp
  deleted := rfl

theorem unchanged_iff {t : DocTable env} {mtime : Option ℤ} {c : Chunk} :
    unchanged t mtime c = true ↔ ∃ p, t.find c.key = some p ∧ p.contentHash = contentHash env c.content ∧ some p.mtime = mtime := by
  unfold unchanged
  cases t.find c.key with
  | none => simp
  | some p => simp

section Step

variable {t : DocTable env} {force : Bool} {seen : List (Option ℤ × Chunk)} {s s' : Run env} {m : Option ℤ} {c : Chunk}

theorem mem_snoc {x y : Option ℤ × Chunk} : x ∈ seen ++ [y] ↔ x ∈ seen ∨ x = y := by
  rw [List.mem_append, List.mem_singleton]

theorem seenKeys_snoc (h : Progress t force seen s) (key : Key) :
    key ∈ c.key :: s.seenKeys ↔ ∃ x ∈ seen ++ [(m, c)], x.2.key = key := by
  rw [List.mem_cons, h.seenKeys]
  constructor
  · rintro (rfl | ⟨x, hx, hkey⟩)
    · exact ⟨(m, c), mem_snoc.mpr (.inr rfl), rfl⟩
    · exact ⟨x, mem_snoc.mpr (.inl hx), hkey⟩
  · rintro ⟨x, hx, hkey⟩
    rcases mem_snoc.mp hx with hx | rfl
    · exact .inr ⟨x, hx, hkey⟩
    · exact .inl hkey.symm

/-- A chunk that is skipped has its content in the table already, unless another chunk of its key was written since. -/
theorem written_skip (h : Progress t force seen s) {p : DocChunk env} (hp : t.find c.key = some p) (hcontent : p.content = c.content)
    (hmtime : some p.mtime = m) :
    ∀ x ∈ seen ++ [(m, c)], ∃ r, s.table.find x.2.key = some r ∧ ∃ y ∈ seen ++ [(m, c)], y.2.key = x.2.key ∧ Holds r y := by
  intro x hx
  by_cases hold : ∃ y ∈ seen, y.2.key = x.2.key
  · obtain ⟨y, hy, hkey⟩ := hold
    obtain ⟨r, hr, z, hz, hzkey, hholds⟩ := h.written y hy
    exact ⟨r, hkey ▸ hr, z, mem_snoc.mpr (.inl hz), hzkey.trans hkey, hholds⟩
  · have hnew : ∀ y ∈ seen, y.2.key ≠ x.2.key := fun y hy hkey => hold ⟨y, hy, hkey⟩
    rcases mem_snoc.mp hx with hx | rfl
    · exact (hnew x hx rfl).elim
    · refine ⟨p, by rw [h.untouched _ hnew, hp], (m, c), mem_snoc.mpr (.inr rfl), rfl, hcontent, p.mtime, hmtime.symm, ?_⟩
      exact p.pgTime_mtime.symm

theorem progress_skip (h : Progress t force seen s) {p : DocChunk env} (hp : t.find c.key = some p) (hcontent : p.content = c.content)
    (hmtime : some p.mtime = m) (hskip : (!force && unchanged t m c) = true) :
    Progress t force (seen ++ [(m, c)])
      { s with seenKeys := c.key :: s.seenKeys, report.skippedUnchanged := s.report.skippedUnchanged + 1 } where
  seenKeys := seenKeys_snoc h
  untouched key hkey := h.untouched key fun x hx => hkey x (mem_snoc.mpr (.inl hx))
  keys r hr := (h.keys r hr).imp_right fun ⟨x, hx, hkey⟩ => ⟨x, mem_snoc.mpr (.inl hx), hkey⟩
  written := written_skip (s := s) h hp hcontent hmtime
  counted := by
    show s.report.added = 0 ∧ s.report.updated = 0 ↔ _
    rw [h.counted]
    constructor
    · intro hall x hx
      rcases mem_snoc.mp hx with hx | rfl
      · exact hall x hx
      · exact hskip
    · exact fun hall x hx => hall x (mem_snoc.mpr (.inl hx))
  deleted := h.deleted

theorem progress_write (h : Progress t force seen s) {r : DocChunk env} (hrow : r.key = c.key) (hholds : Holds r (m, c))
    (hids : ∀ u ∈ s.table.rows, chunkId env u.key = chunkId env r.key → u.key = r.key) {report : ReindexReport}
    (hreport : ¬ (report.added = 0 ∧ report.updated = 0)) (hdeleted : report.deleted = 0)
    (hwrite : (!force && unchanged t m c) = false) :
    Progress t force (seen ++ [(m, c)]) ⟨upsert s.table r, report, c.key :: s.seenKeys⟩ where
  seenKeys := seenKeys_snoc h
  untouched key hkey := by
    have hne : key ≠ r.key := fun heq => hkey (m, c) (mem_snoc.mpr (.inr rfl)) (hrow.symm.trans heq.symm)
    rw [find_upsert hids, if_neg hne]
    exact h.untouched key fun x hx => hkey x (mem_snoc.mpr (.inl hx))
  keys u hu := by
    rcases keys_upsert hu with hu | hu
    · obtain ⟨v, hv, hkey⟩ := List.mem_map.mp hu
      rw [← hkey]
      exact (h.keys v hv).imp_right fun ⟨x, hx, hkey⟩ => ⟨x, mem_snoc.mpr (.inl hx), hkey⟩
    · exact .inr ⟨(m, c), mem_snoc.mpr (.inr rfl), hrow.symm.trans hu.symm⟩
  written x hx := by
    rw [find_upsert hids]
    by_cases hkey : x.2.key = r.key
    · rw [if_pos hkey]
      exact ⟨r, rfl, (m, c), mem_snoc.mpr (.inr rfl), (hkey.trans hrow).symm, hholds⟩
    · rw [if_neg hkey]
      rcases mem_snoc.mp hx with hx | rfl
      · obtain ⟨u, hu, y, hy, hykey, hyholds⟩ := h.written x hx
        exact ⟨u, hu, y, mem_snoc.mpr (.inl hy), hykey, hyholds⟩
      · exact (hkey hrow.symm).elim
  counted := by
    refine iff_of_false hreport fun hall => ?_
    have hlast := hall (m, c) (mem_snoc.mpr (.inr rfl))
    rw [hwrite] at hlast
    cases hlast
  deleted := hdeleted

end Step

/-! ## The whole walk -/

section Walk

variable {t : DocTable env} {force : Bool} {fs : Files} {seen : List (Option ℤ × Chunk)} {s s' : Run env}

theorem progress_indexChunk (hno : NoCollisions t fs) (h : Progress t force seen s) (hseen : ∀ x ∈ seen, x ∈ timedChunks env.lang fs)
    {m : Option ℤ} {c : Chunk} (hc : (m, c) ∈ timedChunks env.lang fs) (hstep : indexChunk t force m s c = some s') :
    Progress t force (seen ++ [(m, c)]) s' := by
  have hkey : c.key ∈ t.rows.map DocChunk.key ++ (timedChunks env.lang fs).map fun x => x.2.key :=
    List.mem_append_right _ (List.mem_map.mpr ⟨(m, c), hc, rfl⟩)
  unfold indexChunk at hstep
  dsimp only at hstep
  split at hstep
  · rename_i hskip
    obtain rfl := Option.some.inj hstep
    obtain ⟨p, hp, hhash, hmtime⟩ := unchanged_iff.mp (Bool.and_eq_true _ _ ▸ hskip).2
    have hcontent : p.content = c.content := by
      refine hno.hashes _ (List.mem_append_left _ (List.mem_map_of_mem (t.find_some hp).1)) _
        (List.mem_append_right _ (List.mem_map.mpr ⟨(m, c), hc, rfl⟩)) ?_
      rw [← p.hashed, hhash]
    exact progress_skip h hp hcontent hmtime hskip
  · rename_i hwrite
    split at hstep
    · cases hstep
    · rename_i τ
      split at hstep
      · obtain rfl := Option.some.inj hstep
        refine progress_write h rfl ⟨rfl, τ, rfl, rfl⟩ (fun u hu hid => ?_) ?_ ?_ (Bool.eq_false_iff.mpr hwrite)
        · refine hno.ids _ ?_ _ hkey hid
          rcases h.keys u hu with hold | ⟨x, hx, hxkey⟩
          · exact List.mem_append_left _ hold
          · exact List.mem_append_right _ (List.mem_map.mpr ⟨x, hseen x hx, hxkey⟩)
        · split <;> simp
        · split <;> exact h.deleted
      · cases hstep

theorem progress_chunks (hno : NoCollisions t fs) {m : Option ℤ} {cs : List Chunk} (hcs : ∀ c ∈ cs, (m, c) ∈ timedChunks env.lang fs)
    (h : Progress t force seen s) (hseen : ∀ x ∈ seen, x ∈ timedChunks env.lang fs)
    (hrun : cs.foldlM (indexChunk t force m) s = some s') : Progress t force (seen ++ cs.map fun c => (m, c)) s' := by
  induction cs generalizing s seen with
  | nil =>
    obtain rfl := Option.some.inj hrun
    simpa using h
  | cons c cs ih =>
    rw [List.foldlM_cons] at hrun
    obtain ⟨s₁, hstep, hrun⟩ := Option.bind_eq_some_iff.mp hrun
    have hc := hcs c List.mem_cons_self
    have hnext := ih (fun d hd => hcs d (List.mem_cons_of_mem c hd)) (progress_indexChunk hno h hseen hc hstep)
      (fun x hx => (mem_snoc.mp hx).elim (hseen x) fun heq => heq ▸ hc) hrun
    rwa [List.append_assoc] at hnext

theorem progress_seenFile (h : Progress t force seen s) :
    Progress t force seen { s with report.filesSeen := s.report.filesSeen + 1 } where
  seenKeys := h.seenKeys
  untouched := h.untouched
  keys := h.keys
  written := h.written
  counted := h.counted
  deleted := h.deleted

theorem progress_indexFile (hno : NoCollisions t fs) {path : List Char} (hpath : path ∈ indexedPaths) (h : Progress t force seen s)
    (hseen : ∀ x ∈ seen, x ∈ timedChunks env.lang fs) (hstep : indexFile t force fs s path = some s') :
    Progress t force (seen ++ fileChunks env.lang fs path) s' := by
  have hfile : ∀ x ∈ fileChunks env.lang fs path, x ∈ timedChunks env.lang fs :=
    fun x hx => List.mem_flatMap.mpr ⟨path, hpath, hx⟩
  unfold indexFile at hstep
  unfold fileChunks at hfile ⊢
  split at hstep
  · rename_i hnone
    obtain rfl := Option.some.inj hstep
    rw [hnone]
    simpa using h
  · rename_i file hsome
    obtain ⟨modified, text⟩ := file
    rw [hsome] at hfile ⊢
    cases text with
    | none => cases hstep
    | some text =>
      exact progress_chunks hno (fun c hc => hfile _ (List.mem_map_of_mem hc)) (progress_seenFile h) hseen hstep

theorem progress_files (hno : NoCollisions t fs) {paths : List (List Char)} (hpaths : ∀ path ∈ paths, path ∈ indexedPaths)
    (h : Progress t force seen s) (hseen : ∀ x ∈ seen, x ∈ timedChunks env.lang fs)
    (hrun : paths.foldlM (indexFile t force fs) s = some s') : Progress t force (seen ++ paths.flatMap (fileChunks env.lang fs)) s' := by
  induction paths generalizing s seen with
  | nil =>
    obtain rfl := Option.some.inj hrun
    simpa using h
  | cons path paths ih =>
    rw [List.foldlM_cons] at hrun
    obtain ⟨s₁, hstep, hrun⟩ := Option.bind_eq_some_iff.mp hrun
    have hpath := hpaths path List.mem_cons_self
    have hnext := ih (fun p hp => hpaths p (List.mem_cons_of_mem path hp)) (progress_indexFile hno hpath h hseen hstep)
      (fun x hx => (List.mem_append.mp hx).elim (hseen x) fun hx => List.mem_flatMap.mpr ⟨path, hpath, hx⟩) hrun
    rwa [List.append_assoc] at hnext

theorem progress_walk (hno : NoCollisions t fs) (hrun : indexedPaths.foldlM (indexFile t force fs) ⟨t, {}, []⟩ = some s') :
    Progress t force (timedChunks env.lang fs) s' := by
  have hwalk := progress_files hno (fun _ hpath => hpath) (progress_start t force) (fun x hx => absurd hx List.not_mem_nil) hrun
  rwa [List.nil_append] at hwalk

end Walk

/-! ## What a run leaves -/

section Leaves

variable {t t' : DocTable env} {force : Bool} {fs : Files} {report : ReindexReport}

/-- The rows are those of the chunks, one for each key. -/
structure Indexed (t : DocTable env) (fs : Files) : Prop where
  row : ∀ r ∈ t.rows, ∃ y ∈ timedChunks env.lang fs, y.2.key = r.key ∧ Holds r y
  chunk : ∀ x ∈ timedChunks env.lang fs, ∃ r ∈ t.rows, r.key = x.2.key

theorem reindex_eq_some : reindex t fs force = some (t', report) ↔
    ∃ s, indexedPaths.foldlM (indexFile t force fs) ⟨t, {}, []⟩ = some s ∧
      ((t.rows.map DocChunk.key).filter fun key => key ∉ s.seenKeys).foldl delete s.table = t' ∧
        { s.report with deleted := s.report.deleted + ((t.rows.map DocChunk.key).filter fun key => key ∉ s.seenKeys).length } =
          report := by
  unfold reindex
  rw [Option.map_eq_some_iff]
  simp only [Prod.mk.injEq]

theorem indexed_of_reindex (hno : NoCollisions t fs) (h : reindex t fs force = some (t', report)) : Indexed t' fs := by
  obtain ⟨s, hrun, rfl, -⟩ := reindex_eq_some.mp h
  have hwalk := progress_walk hno hrun
  have hkept : ∀ r, r ∈ (((t.rows.map DocChunk.key).filter fun key => key ∉ s.seenKeys).foldl delete s.table).rows ↔
      r ∈ s.table.rows ∧ r.key ∈ s.seenKeys := by
    intro r
    rw [rows_foldl_delete, List.mem_filter, and_congr_right_iff]
    intro hr
    simp only [decide_eq_true_eq, List.mem_filter, not_and, not_not]
    refine ⟨fun hgone => ?_, fun hseen _ => hseen⟩
    -- A row that no chunk has seen was there before.
    rcases hwalk.keys r hr with hold | ⟨x, hx, hkey⟩
    · exact hgone hold
    · exact (hwalk.seenKeys _).mpr ⟨x, hx, hkey⟩
  constructor
  · intro r hr
    obtain ⟨hr, hseen⟩ := (hkept r).mp hr
    obtain ⟨x, hx, hkey⟩ := (hwalk.seenKeys _).mp hseen
    obtain ⟨u, hu, y, hy, hykey, hholds⟩ := hwalk.written x hx
    have hfind := s.table.find_of_mem hr
    rw [← hkey, hu] at hfind
    obtain rfl := Option.some.inj hfind
    exact ⟨y, hy, hykey.trans hkey, hholds⟩
  · intro x hx
    obtain ⟨u, hu, -⟩ := hwalk.written x hx
    obtain ⟨hmem, hkey⟩ := s.table.find_some hu
    exact ⟨u, (hkept u).mpr ⟨hmem, hkey ▸ (hwalk.seenKeys _).mpr ⟨x, hx, rfl⟩⟩, hkey⟩

/-- A row with its content for every chunk, and no other rows. -/
def RowsRight (t : DocTable env) (fs : Files) : Prop :=
  (∀ x ∈ timedChunks env.lang fs, ∃ r ∈ t.rows, r.key = x.2.key ∧ r.content = x.2.content) ∧
    ∀ r ∈ t.rows, ∃ x ∈ timedChunks env.lang fs, r.key = x.2.key ∧ r.content = x.2.content

/-- Chunks of one anchor in a file have one content. -/
def NoClash (lang : Unicode) (fs : Files) : Prop :=
  ∀ x ∈ timedChunks lang fs, ∀ y ∈ timedChunks lang fs, x.2.key = y.2.key → x.2.content = y.2.content

/-- The time of a file that has chunks is a whole number of microseconds. -/
def WholeMicros (lang : Unicode) (fs : Files) : Prop := ∀ x ∈ timedChunks lang fs, ∀ τ, x.1 = some τ → τ % 1000 = 0

theorem row_unique {r u : DocChunk env} (hr : r ∈ t.rows) (hu : u ∈ t.rows) (hkey : r.key = u.key) : r = u :=
  List.inj_on_of_nodup_map t.key_nodup hr hu hkey

theorem rowsRight_iff (h : Indexed t fs) : RowsRight t fs ↔ NoClash env.lang fs := by
  constructor
  · rintro ⟨hrows, -⟩ x hx y hy hkey
    obtain ⟨r, hr, hrkey, hrcontent⟩ := hrows x hx
    obtain ⟨u, hu, hukey, hucontent⟩ := hrows y hy
    obtain rfl := row_unique hr hu (by rw [hrkey, hkey, hukey])
    exact hrcontent.symm.trans hucontent
  · intro hclash
    constructor
    · intro x hx
      obtain ⟨r, hr, hkey⟩ := h.chunk x hx
      obtain ⟨y, hy, hykey, hholds⟩ := h.row r hr
      exact ⟨r, hr, hkey, hholds.1.trans (hclash y hy x hx (hykey.trans hkey))⟩
    · intro r hr
      obtain ⟨y, hy, hykey, hholds⟩ := h.row r hr
      exact ⟨y, hy, hykey.symm, hholds.1⟩

theorem noCollisions_of_indexed (hno : NoCollisions t fs) (h : Indexed t' fs) : NoCollisions t' fs := by
  have hkeys : ∀ k ∈ t'.rows.map DocChunk.key ++ (timedChunks env.lang fs).map (fun x => x.2.key),
      k ∈ t.rows.map DocChunk.key ++ (timedChunks env.lang fs).map fun x => x.2.key := by
    intro k hk
    refine List.mem_append_right _ ?_
    rcases List.mem_append.mp hk with hk | hk
    · obtain ⟨r, hr, rfl⟩ := List.mem_map.mp hk
      obtain ⟨y, hy, hykey, -⟩ := h.row r hr
      exact List.mem_map.mpr ⟨y, hy, hykey⟩
    · exact hk
  have hcontents : ∀ c ∈ t'.rows.map DocChunk.content ++ (timedChunks env.lang fs).map (fun x => x.2.content),
      c ∈ t.rows.map DocChunk.content ++ (timedChunks env.lang fs).map fun x => x.2.content := by
    intro c hc
    refine List.mem_append_right _ ?_
    rcases List.mem_append.mp hc with hc | hc
    · obtain ⟨r, hr, rfl⟩ := List.mem_map.mp hc
      obtain ⟨y, hy, -, hholds⟩ := h.row r hr
      exact List.mem_map.mpr ⟨y, hy, hholds.1.symm⟩
    · exact hc
  exact ⟨fun k hk k' hk' => hno.ids k (hkeys k hk) k' (hkeys k' hk'),
    fun c hc c' hc' => hno.hashes c (hcontents c hc) c' (hcontents c' hc')⟩

/-- Every chunk is found unchanged where no two clash and no time loses anything in the column. -/
theorem unchanged_all_iff (hno : NoCollisions t fs) (h : Indexed t fs) :
    (∀ x ∈ timedChunks env.lang fs, unchanged t x.1 x.2 = true) ↔ NoClash env.lang fs ∧ WholeMicros env.lang fs := by
  constructor
  · intro hall
    have hrow : ∀ x ∈ timedChunks env.lang fs, ∃ r ∈ t.rows, r.key = x.2.key ∧ r.content = x.2.content ∧ some r.mtime = x.1 := by
      intro x hx
      obtain ⟨p, hp, hhash, hmtime⟩ := unchanged_iff.mp (hall x hx)
      obtain ⟨hmem, hkey⟩ := t.find_some hp
      refine ⟨p, hmem, hkey, ?_, hmtime⟩
      refine hno.hashes _ (List.mem_append_left _ (List.mem_map_of_mem hmem)) _
        (List.mem_append_right _ (List.mem_map.mpr ⟨x, hx, rfl⟩)) ?_
      rw [← p.hashed, hhash]
    constructor
    · intro x hx y hy hkey
      obtain ⟨r, hr, hrkey, hrcontent, -⟩ := hrow x hx
      obtain ⟨u, hu, hukey, hucontent, -⟩ := hrow y hy
      obtain rfl := row_unique hr hu (by rw [hrkey, hkey, hukey])
      exact hrcontent.symm.trans hucontent
    · intro x hx τ hτ
      obtain ⟨r, -, -, -, hmtime⟩ := hrow x hx
      obtain rfl := Option.some.inj (hmtime.trans hτ)
      exact (pgTime_eq_iff _).mp r.pgTime_mtime
  · rintro ⟨hclash, hwhole⟩ x hx
    obtain ⟨r, hr, hkey⟩ := h.chunk x hx
    obtain ⟨y, hy, hykey, hcontent, τ, hτ, hmtime⟩ := h.row r hr
    refine unchanged_iff.mpr ⟨r, hkey ▸ t.find_of_mem hr, ?_, ?_⟩
    · rw [r.hashed, hcontent, hclash y hy x hx (hykey.trans hkey)]
    · rw [hmtime, (pgTime_eq_iff τ).mpr (hwhole y hy τ hτ), ← hτ]
      exact time_eq_of_key hy hx (hykey.trans hkey)

end Leaves

/-! ## A second run -/

section Second

variable {t t' : DocTable env} {force : Bool} {fs : Files} {report : ReindexReport}

theorem foldlM_isSome {α σ : Type*} {f : σ → α → Option σ} {l : List α} (h : ∀ a ∈ l, ∀ s, ∃ s', f s a = some s') (s : σ) :
    ∃ s', l.foldlM f s = some s' := by
  induction l generalizing s with
  | nil => exact ⟨s, rfl⟩
  | cons a l ih =>
    obtain ⟨s₁, h₁⟩ := h a List.mem_cons_self s
    obtain ⟨s₂, h₂⟩ := ih (fun b hb => h b (List.mem_cons_of_mem a hb)) s₁
    exact ⟨s₂, by rw [List.foldlM_cons, h₁]; exact h₂⟩

theorem exists_of_foldlM {α σ : Type*} {f : σ → α → Option σ} {l : List α} {s s' : σ} (h : l.foldlM f s = some s') :
    ∀ a ∈ l, ∃ u u', f u a = some u' := by
  induction l generalizing s with
  | nil => exact fun a ha => absurd ha List.not_mem_nil
  | cons a l ih =>
    rw [List.foldlM_cons] at h
    obtain ⟨s₁, h₁, h₂⟩ := Option.bind_eq_some_iff.mp h
    intro b hb
    rcases List.mem_cons.mp hb with rfl | hb
    · exact ⟨s, s₁, h₁⟩
    · exact ih h₂ b hb

/-- Files that were read once are read again, and unchanged chunks are skipped. -/
theorem walk_unchanged (hread : reindex t fs force = some (t', report))
    (hall : ∀ x ∈ timedChunks env.lang fs, unchanged t' x.1 x.2 = true) :
    ∃ s, indexedPaths.foldlM (indexFile t' false fs) ⟨t', {}, []⟩ = some s := by
  obtain ⟨s₁, hrun, -⟩ := reindex_eq_some.mp hread
  refine foldlM_isSome (fun path hpath s => ?_) _
  obtain ⟨u, u', hfile⟩ := exists_of_foldlM hrun path hpath
  have hchunks : ∀ x ∈ fileChunks env.lang fs path, unchanged t' x.1 x.2 = true :=
    fun x hx => hall x (List.mem_flatMap.mpr ⟨path, hpath, hx⟩)
  unfold indexFile at hfile ⊢
  unfold fileChunks at hchunks
  split at hfile
  · exact ⟨s, rfl⟩
  · rename_i file hsome
    obtain ⟨modified, text⟩ := file
    rw [hsome] at hchunks
    cases text with
    | none => cases hfile
    | some text =>
      refine foldlM_isSome (fun c hc v => ?_) _
      have hskip := hchunks (modified, c) (List.mem_map_of_mem hc)
      unfold indexChunk
      dsimp only at hskip ⊢
      rw [hskip]
      exact ⟨_, rfl⟩

/-- The second run returns, and has nothing to do. -/
def Settled (t : DocTable env) (fs : Files) : Prop :=
  ∃ t' report, reindex t fs false = some (t', report) ∧ report.added = 0 ∧ report.updated = 0 ∧ report.deleted = 0

theorem settled_iff (hno : NoCollisions t fs) (h : reindex t fs force = some (t', report)) :
    Settled t' fs ↔ NoClash env.lang fs ∧ WholeMicros env.lang fs := by
  have hindexed := indexed_of_reindex hno h
  have hno' := noCollisions_of_indexed hno hindexed
  rw [← unchanged_all_iff hno' hindexed]
  constructor
  · rintro ⟨t'', report', hsecond, hadded, hupdated, -⟩
    obtain ⟨s, hrun, -, rfl⟩ := reindex_eq_some.mp hsecond
    intro x hx
    simpa using (progress_walk hno' hrun).counted.mp ⟨hadded, hupdated⟩ x hx
  · intro hall
    obtain ⟨s, hrun⟩ := walk_unchanged h hall
    have hwalk := progress_walk hno' hrun
    have hnone : (t'.rows.map DocChunk.key).filter (fun key => key ∉ s.seenKeys) = [] := by
      rw [List.filter_eq_nil_iff]
      intro key hkey
      obtain ⟨r, hr, rfl⟩ := List.mem_map.mp hkey
      obtain ⟨y, hy, hykey, -⟩ := hindexed.row r hr
      simpa using (hwalk.seenKeys _).mpr ⟨y, hy, hykey⟩
    obtain ⟨hadded, hupdated⟩ := hwalk.counted.mpr fun x hx => by simpa using hall x hx
    refine ⟨_, _, reindex_eq_some.mpr ⟨s, hrun, rfl, rfl⟩, hadded, hupdated, ?_⟩
    show s.report.deleted + _ = 0
    rw [hnone, hwalk.deleted]
    rfl

end Second

/-- Characters as they are, and every text its own hash. -/
def plainEnv : Env := ⟨⟨id, fun _ => true⟩, fun bs => bs.map fun b => Char.ofNat b.toNat, fun _ _ _ => true⟩

/-- One file with this text, changed at this time. -/
def oneFile (modified : ℤ) (text : String) : Files := fun path =>
  if path = "CLAUDE.md".toList then some ⟨some modified, some text.toList⟩ else none

theorem oneFile_others (modified : ℤ) (text : String) :
    ∃ others, indexedPaths = "CLAUDE.md".toList :: others ∧ ∀ path ∈ others, oneFile modified text path = none := by
  refine ⟨_, rfl, ?_⟩
  intro path hpath
  obtain ⟨name, hname, rfl⟩ := List.mem_map.mp hpath
  refine if_neg fun heq => ?_
  obtain rfl := String.toList_inj.mp heq
  simp at hname

theorem walk_oneFile (t : DocTable env) (force : Bool) (modified : ℤ) (text : String) (s : Run env) :
    indexedPaths.foldlM (indexFile t force (oneFile modified text)) s =
      indexFile t force (oneFile modified text) s "CLAUDE.md".toList := by
  obtain ⟨others, hpaths, hnone⟩ := oneFile_others modified text
  have hrest : ∀ s, others.foldlM (indexFile t force (oneFile modified text)) s = some s := by
    clear hpaths
    intro s
    induction others with
    | nil => rfl
    | cons path others ih =>
      rw [List.forall_mem_cons] at hnone
      have hskip : indexFile t force (oneFile modified text) s path = some s := by
        rw [indexFile, hnone.1]
      rw [List.foldlM_cons, hskip]
      exact ih hnone.2
  rw [hpaths, List.foldlM_cons]
  cases indexFile t force (oneFile modified text) s "CLAUDE.md".toList with
  | none => rfl
  | some s => exact hrest s

theorem timedChunks_oneFile (lang : Unicode) (modified : ℤ) (text : String) :
    timedChunks lang (oneFile modified text) =
      (chunkMarkdown lang "CLAUDE.md".toList text.toList).map fun c => (some modified, c) := by
  obtain ⟨others, hpaths, hnone⟩ := oneFile_others modified text
  have hrest : others.flatMap (fileChunks lang (oneFile modified text)) = [] := by
    rw [List.flatMap_eq_nil_iff]
    intro path hpath
    rw [fileChunks, hnone path hpath]
  have hfile : oneFile modified text "CLAUDE.md".toList = some ⟨some modified, some text.toList⟩ := if_pos rfl
  rw [timedChunks, hpaths, List.flatMap_cons, hrest, List.append_nil, fileChunks, hfile]

end BssCli.Knowledge
