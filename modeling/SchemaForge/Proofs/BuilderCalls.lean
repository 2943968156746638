import SchemaForge.Proofs.Completeness

/-! Calls to a run over the builders, in any order. Headers and implementations stay paired whatever
fails between them, and the reply to some call tells what became of each transaction. -/
namespace SchemaForge
namespace BuilderRun

/-- What can be asked of a run. -/
inductive Request where
  | start
  | next
  | advance
  deriving DecidableEq, Repr

inductive Reply where
  | started
  | file (result : Checked SourceFile)
  | name (result : Checked (Option String))

/-- A request with the reply to it, and the run before and after. -/
structure Call where
  before : BuilderRun
  request : Request
  reply : Reply
  after : BuilderRun

def serve (notice : Notice) (s : Schema) (r : BuilderRun) : Request → Reply × BuilderRun
  | .start => (.started, start s)
  | .next => (.file (r.next notice s).1, (r.next notice s).2)
  | .advance => (.name r.advance.1, r.advance.2)

def call (notice : Notice) (s : Schema) (r : BuilderRun) (request : Request) : Call :=
  ⟨r, request, (r.serve notice s request).1, (r.serve notice s request).2⟩

/-- The calls that come from requests which follow one another. -/
def calls (notice : Notice) (s : Schema) : BuilderRun → List Request → List Call
  | _, [] => []
  | r, request :: rest =>
    r.call notice s request :: calls notice s (r.call notice s request).after rest

/-- The transactions that a run has still to come to. -/
def left (r : BuilderRun) : List String := (r.remaining.getD []).filter Builder.isEligible

/-- The transaction whose header is due. -/
def turn (r : BuilderRun) : Option String := if r.awaiting.isSome then none else r.left.head?

namespace Call

/-- The file that a call gives. -/
def file? (c : Call) : Option SourceFile :=
  match c.reply with
  | .file (.ok file) => some file
  | _ => none

def isStart (c : Call) : Bool := c.request == .start

/-- The transaction that a call passes over, whether or not it gives the header. -/
def turn (c : Call) : Option String := if c.isStart then none else c.before.turn

end Call

/-- What the reply to a call tells about the transaction that it passes over. -/
inductive Fate (notice : Notice) (s : Schema) (name : String) : Reply → Prop where
  | written {file : SourceFile} (h : Builder.headerFile s notice name = .ok file) :
    Fate notice s name (.file (.ok file))
  | failed {fault : Fault} (h : Builder.headerFile s notice name = .error fault) :
    Fate notice s name (.file (.error fault))
  | taken : Fate notice s name (.name (.ok (some name)))

/-- The calls after the last start. -/
def recent (past : List Call) : List Call :=
  (past.reverse.takeWhile (!·.isStart)).reverse

/-- The last call after the last start that gave a file. -/
def lastGiven (past : List Call) : Option Call :=
  ((recent past).filter (·.file?.isSome)).getLast?

/-- The transaction whose header was the last file that was given. -/
def due (past : List Call) : Option String := (lastGiven past).bind Call.turn

section
variable {past : List Call} {c : Call}

theorem recent_concat :
    recent (past ++ [c]) = if c.isStart then [] else recent past ++ [c] := by
  cases hc : c.isStart <;> simp [recent, hc]

theorem lastGiven_concat : lastGiven (past ++ [c]) =
    if c.isStart then none else if c.file?.isSome then some c else lastGiven past := by
  cases hc : c.isStart with
  | true => simp [lastGiven, recent_concat, hc]
  | false => cases hf : c.file?.isSome <;> simp [lastGiven, recent_concat, hc, hf]

theorem due_concat : due (past ++ [c]) =
    if c.isStart then none else if c.file?.isSome then c.turn else due past := by
  unfold due
  rw [lastGiven_concat]
  cases hc : c.isStart with
  | true => rfl
  | false => cases hf : c.file?.isSome <;> rfl

end

section
variable {notice : Notice} {s : Schema} {r : BuilderRun}

/-- All that asking for the next transaction can do. -/
theorem advance_cases (r : BuilderRun) :
    (∃ name, r.awaiting = some name ∧ r.advance = (.ok none, r)) ∨
      (∃ fault r', r.awaiting = none ∧ r.left = [] ∧ r.advance = (.error fault, r') ∧
        r'.awaiting = none ∧ r'.left = []) ∨
      ∃ name r', r.awaiting = none ∧ r.left = name :: r'.left ∧
        r.advance = (.ok (some name), r') ∧ r'.awaiting = none := by
  obtain ⟨remaining, awaiting⟩ := r
  cases awaiting with
  | some name => exact .inl ⟨name, rfl, rfl⟩
  | none =>
    cases remaining with
    | none => exact .inr (.inl ⟨_, _, rfl, rfl, rfl, rfl, rfl⟩)
    | some names =>
      -- The names that are dropped are the ones that do not pass the filter.
      have hleft : names.filter Builder.isEligible =
          (names.dropWhile (!Builder.isEligible ·)).filter Builder.isEligible := by
        induction names with
        | nil => rfl
        | cons name rest ih => by_cases he : Builder.isEligible name = true <;> simp [he, ih]
      cases hdrop : names.dropWhile (!Builder.isEligible ·) with
      | nil =>
        rw [hdrop] at hleft
        exact .inr (.inl ⟨.notFound, { remaining := some [] }, rfl, hleft, by simp [advance, hdrop],
          rfl, rfl⟩)
      | cons name rest =>
        have heligible : Builder.isEligible name = true := by
          have hhead := List.head?_dropWhile_not (!Builder.isEligible ·) names
          simpa [hdrop] using hhead
        rw [hdrop, List.filter_cons_of_pos heligible] at hleft
        exact .inr (.inr ⟨name, { remaining := some rest }, rfl, hleft, by simp [advance, hdrop],
          rfl⟩)

/-- All that a call can do. -/
inductive Moves (notice : Notice) (s : Schema) : Call → Prop where
  | start (r : BuilderRun) : Moves notice s ⟨r, .start, .started, BuilderRun.start s⟩
  | header {r r' : BuilderRun} {name : String} {file : SourceFile} (hr : r.awaiting = none)
    (hleft : r.left = name :: r'.left) (h : Builder.headerFile s notice name = .ok file)
    (hr' : r'.awaiting = some name) : Moves notice s ⟨r, .next, .file (.ok file), r'⟩
  | headerFails {r r' : BuilderRun} {name : String} {fault : Fault} (hr : r.awaiting = none)
    (hleft : r.left = name :: r'.left) (h : Builder.headerFile s notice name = .error fault)
    (hr' : r'.awaiting = none) : Moves notice s ⟨r, .next, .file (.error fault), r'⟩
  | code {r : BuilderRun} {name : String} {file : SourceFile} (hr : r.awaiting = some name)
    (h : Builder.codeFile s notice name = .ok file) :
    Moves notice s ⟨r, .next, .file (.ok file), { r with awaiting := none }⟩
  | codeFails {r : BuilderRun} {name : String} {fault : Fault} (hr : r.awaiting = some name)
    (h : Builder.codeFile s notice name = .error fault) :
    Moves notice s ⟨r, .next, .file (.error fault), r⟩
  | taken {r r' : BuilderRun} {name : String} (hr : r.awaiting = none)
    (hleft : r.left = name :: r'.left) (hr' : r'.awaiting = none) :
    Moves notice s ⟨r, .advance, .name (.ok (some name)), r'⟩
  | held {r : BuilderRun} {name : String} (hr : r.awaiting = some name) :
    Moves notice s ⟨r, .advance, .name (.ok none), r⟩
  | ended {r r' : BuilderRun} {request : Request} {reply : Reply} (hrequest : request ≠ .start)
    (hreply : ∃ fault, reply = .file (.error fault) ∨ reply = .name (.error fault))
    (hr : r.awaiting = none) (hleft : r.left = []) (hr' : r'.awaiting = none)
    (hleft' : r'.left = []) : Moves notice s ⟨r, request, reply, r'⟩

theorem moves_next (r : BuilderRun) : Moves notice s (r.call notice s .next) := by
  unfold call serve
  rcases advance_cases r with ⟨name, hr, -⟩ | ⟨fault, r', hr, hleft, hadvance, hr', hleft'⟩ |
    ⟨name, r', hr, hleft, hadvance, hr'⟩
  · cases h : Builder.codeFile s notice name with
    | ok file => simpa [next, hr, h] using Moves.code hr h
    | error fault => simpa [next, hr, h] using Moves.codeFails hr h
  · have hmoves : Moves notice s ⟨r, .next, .file (.error fault), r'⟩ :=
      .ended (by decide) ⟨fault, .inl rfl⟩ hr hleft hr' hleft'
    simpa [next, hr, hadvance] using hmoves
  · cases h : Builder.headerFile s notice name with
    | ok file =>
      have hmoves : Moves notice s ⟨r, .next, .file (.ok file), { r' with awaiting := some name }⟩ :=
        .header hr hleft h rfl
      simpa [next, hr, hadvance, h] using hmoves
    | error fault => simpa [next, hr, hadvance, h] using Moves.headerFails hr hleft h hr'

theorem moves_call (r : BuilderRun) (request : Request) : Moves notice s (r.call notice s request) := by
  cases request with
  | start => exact .start r
  | next => exact moves_next r
  | advance =>
    unfold call serve
    rcases advance_cases r with ⟨name, hr, hadvance⟩ |
      ⟨fault, r', hr, hleft, hadvance, hr', hleft'⟩ | ⟨name, r', hr, hleft, hadvance, hr'⟩
    · simpa [hadvance] using Moves.held hr
    · have hmoves : Moves notice s ⟨r, .advance, .name (.error fault), r'⟩ :=
        .ended (by decide) ⟨fault, .inr rfl⟩ hr hleft hr' hleft'
      simpa [hadvance] using hmoves
    · simpa [hadvance] using Moves.taken hr hleft hr'

/-- What every call keeps holds before each of the calls that follow one another. -/
theorem invariant_calls {P : List Call → BuilderRun → Prop}
    (hstep : ∀ past c, Moves notice s c → P past c.before → P (past ++ [c]) c.after)
    {past front back : List Call} {c : Call} {requests : List Request} (hp : P past r)
    (h : calls notice s r requests = front ++ c :: back) :
    P (past ++ front) c.before ∧ Moves notice s c := by
  induction requests generalizing r past front with
  | nil => simp [calls] at h
  | cons request rest ih =>
    rw [calls] at h
    have hmoves : Moves notice s (r.call notice s request) := moves_call r request
    cases front with
    | nil =>
      obtain ⟨rfl, -⟩ := List.cons.inj h
      rw [List.append_nil]
      exact ⟨hp, hmoves⟩
    | cons first front =>
      obtain ⟨rfl, hrest⟩ := List.cons.inj h
      obtain ⟨hinv, hc⟩ := ih (hstep past _ hmoves hp) hrest
      exact ⟨by simpa using hinv, hc⟩

variable {past : List Call} {c : Call}

/-- A run waits for the implementation of the transaction whose header was the last file given. -/
theorem awaiting_step (hc : Moves notice s c) (h : c.before.awaiting = due past) :
    c.after.awaiting = due (past ++ [c]) := by
  rw [due_concat]
  cases hc with
  | start r => rfl
  | header hr hleft _ hr' => simp [Call.isStart, Call.file?, Call.turn, turn, hr, hleft, hr']
  | headerFails hr _ _ hr' => simp [Call.isStart, Call.file?, ← h, hr, hr']
  | code hr _ => simp [Call.isStart, Call.file?, Call.turn, turn, hr]
  | codeFails hr _ => simp [Call.isStart, Call.file?, ← h]
  | taken hr _ hr' => simp [Call.isStart, Call.file?, ← h, hr, hr']
  | held hr => simp [Call.isStart, Call.file?, ← h]
  | ended hrequest hreply hr _ hr' _ =>
    obtain ⟨fault, rfl | rfl⟩ := hreply <;>
      simp [Call.isStart, Call.file?, hrequest, ← h, hr, hr']

/-- The transactions that were passed over since the last start are those in front of the ones that
are left. -/
theorem passed_step (hc : Moves notice s c) (h : past.any Call.isStart = true →
      s.names.filter Builder.isEligible = (recent past).filterMap Call.turn ++ c.before.left)
    (hs : (past ++ [c]).any Call.isStart = true) :
    s.names.filter Builder.isEligible =
      (recent (past ++ [c])).filterMap Call.turn ++ c.after.left := by
  rw [recent_concat]
  by_cases hstart : c.isStart = true
  · cases hc with
    | start r => rfl
    | ended hrequest => simp [Call.isStart, hrequest] at hstart
    | _ => cases hstart
  · have hpassed := h (by simpa [hstart] using hs)
    have hturn : c.turn = c.before.turn := by simp [Call.turn, hstart]
    rw [if_neg hstart, hpassed, List.filterMap_append, List.append_assoc, List.append_cancel_left_eq]
    cases hc with
    | start r => exact absurd rfl hstart
    | header hr hleft | headerFails hr hleft | taken hr hleft =>
      simp [hturn, turn, hr, hleft]
    | code hr | codeFails hr | held hr => simp [hturn, turn, hr, left]
    | ended _ _ hr hleft _ hleft' => simp [hturn, turn, hr, hleft, hleft']

/-- The reply to the call that passes over a transaction tells what became of it. -/
theorem fate_of_turn (hc : Moves notice s c) {name : String} (h : c.turn = some name) :
    Fate notice s name c.reply := by
  cases hc with
  | start r => cases h
  | header hr hleft hf =>
    obtain rfl : _ = name := by simpa [Call.turn, Call.isStart, turn, hr, hleft] using h
    exact .written hf
  | headerFails hr hleft hf =>
    obtain rfl : _ = name := by simpa [Call.turn, Call.isStart, turn, hr, hleft] using h
    exact .failed hf
  | taken hr hleft =>
    obtain rfl : _ = name := by simpa [Call.turn, Call.isStart, turn, hr, hleft] using h
    exact .taken
  | code hr | codeFails hr | held hr => simp [Call.turn, Call.isStart, turn, hr] at h
  | ended hrequest _ hr hleft => simp [Call.turn, Call.isStart, turn, hr, hleft, hrequest] at h

/-- A call that gives a file gives the header of the transaction that it passes over, or the
implementation that was due. -/
theorem given_of_moves (hc : Moves notice s c) {file : SourceFile} (h : c.file? = some file) :
    (∃ name, c.turn = some name ∧ Builder.headerFile s notice name = .ok file) ∨
      ∃ name, c.before.awaiting = some name ∧ c.turn = none ∧
        Builder.codeFile s notice name = .ok file := by
  cases hc with
  | header hr hleft hf =>
    obtain rfl := Option.some.inj h
    exact .inl ⟨_, by simp [Call.turn, Call.isStart, turn, hr, hleft], hf⟩
  | code hr hf =>
    obtain rfl := Option.some.inj h
    exact .inr ⟨_, hr, by simp [Call.turn, Call.isStart, turn, hr], hf⟩
  | ended _ hreply => obtain ⟨fault, rfl | rfl⟩ := hreply <;> cases h
  | _ => cases h

/-- The headers that calls give, by the names of the files. -/
def headers (recent : List Call) : List SourceFile :=
  (recent.filterMap Call.file?).filter fun file => Text.endsWith ".h" file.name

theorem isHeader_of_headerFile {name : String} {file : SourceFile}
    (h : Builder.headerFile s notice name = .ok file) :
    Text.endsWith ".h" file.name = true ∧ Text.endsWith ".cpp" file.name = false := by
  rw [Builder.name_of_fileOf h]
  constructor
  · simp [Text.endsWith, List.isSuffixOf]
  · simp only [Text.endsWith, List.isSuffixOf, String.toList_append, List.reverse_append]
    rfl

theorem isCode_of_codeFile {name : String} {file : SourceFile}
    (h : Builder.codeFile s notice name = .ok file) : Text.endsWith ".h" file.name = false := by
  rw [Builder.name_of_fileOf h]
  simp only [Text.endsWith, List.isSuffixOf, String.toList_append, List.reverse_append]
  rfl

/-- The headers that calls give are those of some of the transactions that the calls pass over. -/
theorem headers_of_moves {recent : List Call} (h : ∀ x ∈ recent, Moves notice s x) :
    ∃ names, List.Forall₂ (fun name file => Builder.headerFile s notice name = .ok file) names
      (headers recent) ∧ names.Sublist (recent.filterMap Call.turn) := by
  induction recent with
  | nil => exact ⟨[], .nil, .slnil⟩
  | cons x rest ih =>
    obtain ⟨names, hnames, hsub⟩ := ih fun y hy => h y (by simp [hy])
    have hskip : names.Sublist ((x :: rest).filterMap Call.turn) :=
      hsub.trans ((List.sublist_cons_self x rest).filterMap Call.turn)
    cases hfile : x.file? with
    | none =>
      refine ⟨names, ?_, hskip⟩
      simpa [headers, hfile] using hnames
    | some file =>
      rcases given_of_moves (h x (by simp)) hfile with ⟨name, hturn, hheader⟩ | ⟨name, -, -, hcode⟩
      · refine ⟨name :: names, ?_, ?_⟩
        · simpa [headers, hfile, (isHeader_of_headerFile hheader).1, hheader] using hnames
        · simpa [hturn] using hsub
      · refine ⟨names, ?_, hskip⟩
        simpa [headers, hfile, isCode_of_codeFile hcode] using hnames

/-- The calls since the last start, with the run after them, tell what became of every transaction. -/
structure Accounts (notice : Notice) (s : Schema) (recent : List Call) (r : BuilderRun) : Prop where
  passed : s.names.filter Builder.isEligible = recent.filterMap Call.turn ++ r.left
  fates : ∀ x ∈ recent, ∀ name, x.turn = some name → Fate notice s name x.reply
  written : ∃ names, List.Forall₂ (fun name file => Builder.headerFile s notice name = .ok file) names
    (headers recent) ∧ names.Sublist (s.names.filter Builder.isEligible) ∧
      (s.names.Nodup → names.Nodup)

theorem accounts_of_passed {recent : List Call} (hmoves : ∀ x ∈ recent, Moves notice s x)
    (h : s.names.filter Builder.isEligible = recent.filterMap Call.turn ++ r.left) :
    Accounts notice s recent r := by
  refine ⟨h, fun x hx name => fate_of_turn (hmoves x hx), ?_⟩
  obtain ⟨names, hnames, hsub⟩ := headers_of_moves hmoves
  have hsublist : names.Sublist (s.names.filter Builder.isEligible) :=
    h ▸ hsub.trans (List.sublist_append_left _ _)
  exact ⟨names, hnames, hsublist, fun hnodup => (hnodup.filter _).sublist hsublist⟩

/-- What holds of all calls so far and of the run after them. -/
structure Consistent (notice : Notice) (s : Schema) (past : List Call) (r : BuilderRun) : Prop where
  moves : ∀ x ∈ past, Moves notice s x
  awaiting : r.awaiting = due past
  passed : past.any Call.isStart = true →
    s.names.filter Builder.isEligible = (recent past).filterMap Call.turn ++ r.left

theorem consistent_step (hc : Moves notice s c) (h : Consistent notice s past c.before) :
    Consistent notice s (past ++ [c]) c.after where
  moves x hx := by
    rcases List.mem_append.1 hx with hx | hx
    · exact h.moves x hx
    · exact List.mem_singleton.1 hx ▸ hc
  awaiting := awaiting_step hc h.awaiting
  passed := passed_step hc h.passed

theorem mem_of_mem_recent {x : Call} (h : x ∈ recent past) : x ∈ past := by
  have hmem := (List.takeWhile_sublist _).subset (List.mem_reverse.1 h)
  exact List.mem_reverse.1 hmem

/-- The header that was given last is the one of the transaction that is due. -/
theorem header_of_due (hmoves : ∀ x ∈ past, Moves notice s x) {name : String}
    (h : due past = some name) : ∃ given header, lastGiven past = some given ∧
      given.turn = some name ∧ given.file? = some header ∧
        Builder.headerFile s notice name = .ok header := by
  obtain ⟨given, hgiven, hturn⟩ := Option.bind_eq_some_iff.1 h
  have hmem := List.mem_filter.1 (List.mem_of_getLast? hgiven)
  obtain ⟨header, hheader⟩ := Option.isSome_iff_exists.1 hmem.2
  refine ⟨given, header, hgiven, hturn, hheader, ?_⟩
  rcases given_of_moves (hmoves given (mem_of_mem_recent hmem.1)) hheader with
    ⟨name', hturn', hfile⟩ | ⟨name', -, hturn', -⟩
  · obtain rfl : name' = name := Option.some.inj (hturn'.symm.trans hturn)
    exact hfile
  · simp [hturn] at hturn'

theorem next_of_awaiting (hc : Moves notice s c) {name : String}
    (hr : c.before.awaiting = some name) (hrequest : c.request = .next) :
    c.reply = .file (Builder.codeFile s notice name) ∧
      ∀ fault, c.reply = .file (.error fault) → c.after = c.before := by
  cases hc with
  | code hr' hf =>
    obtain rfl : name = _ := Option.some.inj (hr.symm.trans hr')
    exact ⟨by rw [hf], by simp⟩
  | codeFails hr' hf =>
    obtain rfl : name = _ := Option.some.inj (hr.symm.trans hr')
    exact ⟨by rw [hf], fun _ _ => rfl⟩
  | header hr' | headerFails hr' | ended _ _ hr' => simp [hr'] at hr
  | _ => cases hrequest

theorem advance_of_awaiting (hc : Moves notice s c) {name : String}
    (hr : c.before.awaiting = some name) (hrequest : c.request = .advance) :
    c.reply = .name (.ok none) ∧ c.after = c.before := by
  cases hc with
  | held => exact ⟨rfl, rfl⟩
  | taken hr' | ended _ _ hr' => simp [hr'] at hr
  | _ => cases hrequest

/-- Whatever is asked of a run and whatever fails: an implementation follows the header of the same
transaction; the transactions are passed over in the order of the schema, and one without a header had
none that could be written or was asked for by name; an implementation that fails stays due; and as
long as it is due no transaction is passed over. -/
theorem calls_paired {requests : List Request} {future : List Call}
    (h : calls notice s {} requests = past ++ c :: future) :
    (∀ file, c.file? = some file → Text.endsWith ".cpp" file.name = true →
      ∃ name given header, lastGiven past = some given ∧ given.turn = some name ∧
        given.file? = some header ∧ IsPair notice s name (header, file)) ∧
    ((past ++ [c]).any Call.isStart = true → Accounts notice s (recent (past ++ [c])) c.after) ∧
    (∀ name, due past = some name → c.request = .next →
      c.reply = .file (Builder.codeFile s notice name) ∧
        ∀ fault, c.reply = .file (.error fault) →
          c.after = c.before ∧ due (past ++ [c]) = some name) ∧
    ∀ name, due past = some name → c.request = .advance →
      c.reply = .name (.ok none) ∧ c.after = c.before ∧ due (past ++ [c]) = some name := by
  have hempty : Consistent notice s [] {} := ⟨by simp, rfl, by simp⟩
  obtain ⟨hinv, hc⟩ := invariant_calls (fun _ _ => consistent_step) hempty h
  rw [List.nil_append] at hinv
  have hnext := consistent_step hc hinv
  refine ⟨?_, ?_, ?_, ?_⟩
  · intro file hfile hcpp
    rcases given_of_moves hc hfile with ⟨name, -, hheader⟩ | ⟨name, hname, -, hcode⟩
    · simp [(isHeader_of_headerFile hheader).2] at hcpp
    · obtain ⟨given, header, hgiven, hturn, hfile', hheader⟩ :=
        header_of_due hinv.moves (hinv.awaiting ▸ hname)
      exact ⟨name, given, header, hgiven, hturn, hfile', hheader, Builder.name_of_fileOf hheader,
        hcode, Builder.name_of_fileOf hcode⟩
  · intro hs
    exact accounts_of_passed (fun x hx => hnext.moves x (mem_of_mem_recent hx)) (hnext.passed hs)
  · intro name hdue hrequest
    have hname := hinv.awaiting.trans hdue
    obtain ⟨hreply, hkept⟩ := next_of_awaiting hc hname hrequest
    refine ⟨hreply, fun fault hfault => ⟨hkept fault hfault, ?_⟩⟩
    rw [← hnext.awaiting, hkept fault hfault, hname]
  · intro name hdue hrequest
    have hname := hinv.awaiting.trans hdue
    obtain ⟨hreply, hkept⟩ := advance_of_awaiting hc hname hrequest
    exact ⟨hreply, hkept, by rw [← hnext.awaiting, hkept, hname]⟩

/-- The two files of the first transaction, with a request for a name between them. -/
theorem calls_first {name : String} {rest : List String} {header code : SourceFile}
    (hfirst : s.names.dropWhile (!Builder.isEligible ·) = name :: rest)
    (hh : Builder.headerFile s notice name = .ok header)
    (hc : Builder.codeFile s notice name = .ok code) :
    ∃ past c, calls notice s {} [.start, .next, .advance, .next] = past ++ [c] ∧
      past.map (·.reply) = [.started, .file (.ok header), .name (.ok none)] ∧
      (lastGiven past).bind Call.file? = some header ∧ c.file? = some code ∧
      (past ++ [c]).any Call.isStart = true := by
  refine ⟨_, _, (List.dropLast_append_getLast (by simp [calls])).symm, ?_⟩
  simp [calls, call, serve, start, next, advance, hfirst, hh, hc, lastGiven, recent, Call.isStart,
    Call.file?]

theorem calls_paired_registration : ∃ header code past c,
    calls .absent Builder.registration {} [.start, .next, .advance, .next] = past ++ [c] ∧
    past.map (·.reply) = [.started, .file (.ok header), .name (.ok none)] ∧
    c.file? = some code ∧
    (∃ name given, lastGiven past = some given ∧ given.file? = some header ∧
      IsPair .absent Builder.registration name (header, code)) ∧
    Accounts .absent Builder.registration (recent (past ++ [c])) c.after := by
  obtain ⟨header, hh⟩ := Builder.exists_header_registration
  obtain ⟨code, hc⟩ := Builder.exists_code_registration
  have hfirst : Builder.registration.names.dropWhile (!Builder.isEligible ·) =
      ["NamespaceRegistrationTransaction"] := by decide +kernel
  obtain ⟨past, c, h, hpast, hlast, hcode, hstart⟩ := calls_first hfirst hh hc
  have hcpp : Text.endsWith ".cpp" code.name = true := by
    rw [Builder.name_of_fileOf hc]
    simp [Text.endsWith, List.isSuffixOf]
  obtain ⟨hpaired, haccounts, -⟩ := calls_paired h
  obtain ⟨name, given, header', hgiven, -, hheader', hpair⟩ := hpaired code hcode hcpp
  obtain rfl : header = header' := by simpa [hgiven, hheader'] using hlast.symm
  exact ⟨header, code, past, c, h, hpast, hcode, ⟨name, given, hgiven, hheader', hpair⟩,
    haccounts hstart⟩

end
end BuilderRun
end SchemaForge
