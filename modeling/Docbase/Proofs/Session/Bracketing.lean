/-
Transactions over the whole work of a session, on a store that answers as it likes. What is
said of it is said of the calls that have reached the store and of their answers: a transaction
is open after them if a start was granted and no commit or abort since (`Exchange.Open`), and
that is so iff the last call that was granted is a start (`open_iff_lastGranted`).

The session's own flag says the same, after every request and therefore after all of them
(`Work.Sound.request`, `Work.Sound.requests`), since it follows the calls that are granted and no
others. So starts, commits and aborts reach the store in turn: `Session.requests_bracketed`.
-/
import Docbase.Store.Server
import Mathlib.Data.List.Basic
import Mathlib.Data.List.Induction

namespace Docbase

/-- Where a list with an element at its end is cut at an element, that is the last one or stands before it. -/
theorem concat_eq_append_cons {α : Type} {xs before after : List α} {x y : α}
    (h : xs ++ [x] = before ++ y :: after) :
    (before = xs ∧ y = x ∧ after = []) ∨ ∃ rest, after = rest ++ [x] ∧ xs = before ++ y :: rest := by
  rcases List.eq_nil_or_concat' after with rfl | ⟨rest, last, rfl⟩
  · obtain ⟨hxs, hx⟩ := List.append_inj' h rfl
    cases hx
    exact .inl ⟨hxs.symm, rfl, rfl⟩
  · rw [← List.cons_append, ← List.append_assoc] at h
    obtain ⟨hxs, hx⟩ := List.append_inj' h rfl
    cases hx
    exact .inr ⟨rest, rfl, hxs⟩

/-- A store as transactions see it: whether it supports them, and how it answers a call in a state of
any kind. -/
structure TransactionStore (σ : Type) where
  supported : Bool
  answer : TransactionCall → σ → Result Unit × σ

/-- A call that has reached a store, with its answer. -/
structure Exchange where
  call : TransactionCall
  answer : Result Unit

namespace Exchange

def granted (e : Exchange) : Bool := e.answer.isOk

/-- Whether a transaction is open after exchanges: a start was granted, and no commit or abort since. -/
def Open (log : List Exchange) : Prop :=
  ∃ before after, log = before ++ ⟨.start, .ok ()⟩ :: after ∧
    ∀ e ∈ after, e.call = .commit ∨ e.call = .abort → e.granted = false

/-- Whether each start in a list of exchanges comes while no transaction is open, and each commit and
abort while one is. -/
def Bracketed (log : List Exchange) : Prop :=
  ∀ before e after, log = before ++ e :: after →
    (e.call = .start → ¬Open before) ∧ (e.call = .commit ∨ e.call = .abort → Open before)

/-- The last call that was granted. -/
def lastGranted? (log : List Exchange) : Option TransactionCall :=
  ((log.filter granted).getLast?).map Exchange.call

variable {log : List Exchange} {e : Exchange}

theorem lastGranted?_concat (log : List Exchange) (e : Exchange) :
    lastGranted? (log ++ [e]) = if e.granted then some e.call else lastGranted? log := by
  rw [lastGranted?, List.filter_append]
  cases he : e.granted with
  | true => simp [he]
  | false => simp [he, lastGranted?]

theorem not_open_nil : ¬Open [] := by
  rintro ⟨before, after, h, -⟩
  simp at h

/-- What an exchange does to a transaction: a start that is granted opens one, whatever else is granted
leaves none open, and what is refused changes nothing. -/
theorem open_concat_iff (log : List Exchange) (e : Exchange) :
    Open (log ++ [e]) ↔ if e.granted then e.call = .start else Open log := by
  constructor
  · rintro ⟨before, after, heq, hafter⟩
    rcases concat_eq_append_cons heq with ⟨-, rfl, -⟩ | ⟨rest, rfl, hlog⟩
    · exact rfl
    · split
      · next hgranted =>
        cases hcall : e.call with
        | start => rfl
        | commit => exact absurd hgranted (by simp [hafter e (by simp) (.inl hcall)])
        | abort => exact absurd hgranted (by simp [hafter e (by simp) (.inr hcall)])
      · exact ⟨before, rest, hlog, fun e' he' => hafter e' (List.mem_append_left _ he')⟩
  · split
    · next hgranted =>
      intro hcall
      obtain ⟨call, answer⟩ := e
      cases answer with
      | error _ => cases hgranted
      | ok _ =>
        cases hcall
        exact ⟨log, [], rfl, by simp⟩
    · next hrefused =>
      rintro ⟨before, after, rfl, hafter⟩
      refine ⟨before, after ++ [e], by simp, fun e' he' => ?_⟩
      rcases List.mem_append.1 he' with he' | he'
      · exact hafter e' he'
      · rw [List.mem_singleton.1 he']
        exact fun _ => Bool.eq_false_iff.2 hrefused

/-- A transaction is open iff the last call that was granted is a start. -/
theorem open_iff_lastGranted (log : List Exchange) : Open log ↔ lastGranted? log = some .start := by
  induction log using List.reverseRecOn with
  | nil => exact iff_of_false not_open_nil (by simp [lastGranted?])
  | append_singleton log e ih =>
    rw [open_concat_iff, lastGranted?_concat]
    cases e.granted with
    | true => simp
    | false => simpa using ih

/-- A list of exchanges stays bracketed by one that comes in its turn. -/
theorem Bracketed.concat (h : Bracketed log) (he : e.call = .start ↔ ¬Open log) : Bracketed (log ++ [e]) := by
  intro before e' after heq
  rcases concat_eq_append_cons heq with ⟨rfl, rfl, -⟩ | ⟨rest, -, hlog⟩
  · refine ⟨he.1, fun hcloses => ?_⟩
    by_contra hopen
    rw [he.2 hopen] at hcloses
    simp at hcloses
  · exact h before e' rest hlog

end Exchange

theorem Session.answered_inTransaction (s : Session) (call : TransactionCall) (answer : Result Unit) :
    (s.answered call answer).inTransaction = if answer.isOk then call.opens else s.inTransaction := by
  cases answer <;> rfl

/-- A session at work: the state of the store that it works on, and the exchanges between them. -/
structure Work (σ : Type) where
  session : Session
  state : σ
  log : List Exchange

namespace Work

open Exchange

variable {σ : Type} {store : TransactionStore σ} {w : Work σ}

/-- A session that sets to work. -/
def begin (state : σ) : Work σ := ⟨.idle, state, []⟩

/-- Makes a request of the store, if it has to reach it. -/
def request (store : TransactionStore σ) (call : TransactionCall) (w : Work σ) : Result Unit × Work σ :=
  if w.session.reaches store.supported call then
    let (answer, state) := store.answer call w.state
    (answer, ⟨w.session.answered call answer, state, w.log ++ [⟨call, answer⟩]⟩)
  else (.ok (), w)

/-- Makes requests one after the other, whatever becomes of them. -/
def requests (store : TransactionStore σ) (calls : List TransactionCall) (w : Work σ) : Work σ :=
  calls.foldl (fun w call => (w.request store call).2) w

/-- What is true of a session at work at any time: its flag tells whether a transaction is open, and its
calls have come in turn. -/
structure Sound (w : Work σ) : Prop where
  flag : w.session.inTransaction = true ↔ Open w.log
  bracketed : Bracketed w.log

theorem sound_begin (state : σ) : (begin state).Sound where
  flag := iff_of_false Bool.false_ne_true not_open_nil
  bracketed := by
    intro before e after h
    simp [begin] at h

theorem request_eq (store : TransactionStore σ) (call : TransactionCall) (w : Work σ) : w.request store call =
    if w.session.reaches store.supported call then
      ((store.answer call w.state).1, ⟨w.session.answered call (store.answer call w.state).1,
        (store.answer call w.state).2, w.log ++ [⟨call, (store.answer call w.state).1⟩]⟩)
    else (.ok (), w) := rfl

/-- A request reaches the store if transactions are supported and its turn has come. -/
theorem Sound.reaches_iff (h : w.Sound) (supported : Bool) (call : TransactionCall) :
    w.session.reaches supported call = true ↔ supported = true ∧ (call = .start ↔ ¬Open w.log) := by
  rw [Session.reaches, Bool.and_eq_true, ← h.flag]
  cases call <;> simp [TransactionCall.applies]

/-- A request leaves a session as sound as it was, whatever the store answers. -/
theorem Sound.request (h : w.Sound) (store : TransactionStore σ) (call : TransactionCall) :
    (w.request store call).2.Sound := by
  rw [request_eq]
  split
  · next hreaches =>
    obtain ⟨-, hturn⟩ := (h.reaches_iff _ _).1 hreaches
    refine ⟨?_, h.bracketed.concat hturn⟩
    rw [open_concat_iff, Session.answered_inTransaction, granted]
    cases (store.answer call w.state).1 with
    | error e => exact h.flag
    | ok _ => cases call <;> simp [TransactionCall.opens, Except.isOk, Except.toBool]
  · exact h

theorem Sound.requests (h : w.Sound) (store : TransactionStore σ) (calls : List TransactionCall) :
    (w.requests store calls).Sound := by
  induction calls generalizing w with
  | nil => exact h
  | cons call calls ih => exact ih (h.request store call)

/-- On a store without transactions nothing happens. -/
theorem requests_of_not_supported (hstore : store.supported = false) (calls : List TransactionCall) :
    w.requests store calls = w := by
  induction calls with
  | nil => rfl
  | cons call calls ih =>
    have hreaches : ¬w.session.reaches store.supported call = true := by simp [Session.reaches, hstore]
    rw [requests, List.foldl_cons, request_eq, if_neg hreaches]
    exact ih

end Work

namespace Server

/-- A server as a store that answers transaction calls. -/
def transactionStore (supported : Bool) : TransactionStore Server := ⟨supported, fun call s => s.transact call⟩

/-- The session and the server after requests. -/
def requests (calls : List TransactionCall) (session : Session) (s : Server) : Session × Server :=
  calls.foldl (fun p call => (p.2.request p.1 call).2) (session, s)

theorem transact_supportsTransactions (call : TransactionCall) (s : Server) :
    (s.transact call).2.supportsTransactions = s.supportsTransactions := by
  unfold transact
  dsimp only
  split <;> rfl

/-- Requests of a server are those of a session at work on it. -/
theorem requests_eq (calls : List TransactionCall) {supported : Bool} {w : Work Server}
    (hw : w.state.supportsTransactions = supported) : requests calls w.session w.state =
      ((w.requests (transactionStore supported) calls).session,
        (w.requests (transactionStore supported) calls).state) := by
  induction calls generalizing w with
  | nil => rfl
  | cons call calls ih =>
    have hstep : (w.state.request w.session call).2 =
        ((w.request (transactionStore supported) call).2.session,
          (w.request (transactionStore supported) call).2.state) := by
      rw [Server.request, Work.request_eq, hw, transactionStore]
      split <;> rfl
    have hsupports : (w.request (transactionStore supported) call).2.state.supportsTransactions = supported := by
      rw [Work.request_eq]
      split
      · exact (transact_supportsTransactions call w.state).trans hw
      · exact hw
    have hrest := ih hsupports
    rw [requests] at hrest ⊢
    rw [List.foldl_cons, hstep]
    exact hrest

end Server

open Exchange

/-- **Transactions are bracketed, whatever the store answers.** In the work of a session, no start reaches
the store while a transaction is open, and no commit or abort while none is; the session's flag is set iff
the last call that was granted is a start, that is iff a transaction is open. A request whose turn it is
reaches a store that supports transactions, and is answered as the store answers; any other is granted and
does nothing, and so is every request on a store without transactions. A server is such a store. -/
theorem Session.requests_bracketed {σ : Type} (store : TransactionStore σ) (state : σ)
    (calls : List TransactionCall) :
    let w := (Work.begin state).requests store calls
    Bracketed w.log ∧ (w.session.inTransaction = true ↔ lastGranted? w.log = some .start) ∧
      (w.session.inTransaction = true ↔ Open w.log) ∧
      (∀ call, store.supported = true ∧ (call = .start ↔ ¬Open w.log) →
        (w.request store call).1 = (store.answer call w.state).1 ∧
          (w.request store call).2.log = w.log ++ [⟨call, (store.answer call w.state).1⟩]) ∧
      (∀ call, ¬(store.supported = true ∧ (call = .start ↔ ¬Open w.log)) →
        w.request store call = (.ok (), w)) ∧
      (store.supported = false → w.log = [] ∧ w.session.inTransaction = false) ∧
      ∀ s : Server, Server.requests calls .idle s =
        (((Work.begin s).requests (Server.transactionStore s.supportsTransactions) calls).session,
          ((Work.begin s).requests (Server.transactionStore s.supportsTransactions) calls).state) := by
  intro w
  have hsound : w.Sound := (Work.sound_begin state).requests store calls
  refine ⟨hsound.bracketed, ?_, hsound.flag, fun call hturn => ?_, fun call hturn => ?_, fun hstore => ?_,
    fun s => ?_⟩
  · rw [hsound.flag, open_iff_lastGranted]
  · rw [Work.request_eq, if_pos ((hsound.reaches_iff _ _).2 hturn)]
    exact ⟨rfl, rfl⟩
  · rw [Work.request_eq]
    exact if_neg fun hreaches => hturn ((hsound.reaches_iff _ _).1 hreaches)
  · have hw : w = Work.begin state := Work.requests_of_not_supported hstore calls
    rw [hw]
    exact ⟨rfl, rfl⟩
  · exact Server.requests_eq calls (w := Work.begin s) rfl

/-- A commit is refused, and the session goes on until the transaction is aborted and another started. The
same requests do not reach a server without transactions. -/
theorem Session.requests_bracketed_of_refused_commit :
    let calls : List TransactionCall := [.commit, .start, .start, .commit, .start, .abort, .start]
    let s : Server := { Server.empty with refusals := [.commit] }
    let w := (Work.begin s).requests (Server.transactionStore true) calls
    let idle := (Work.begin s).requests (Server.transactionStore false) calls
    w.log.map (fun e => (e.call, e.granted)) =
        [(.start, true), (.commit, false), (.abort, true), (.start, true)] ∧
      Bracketed w.log ∧ w.session.inTransaction = true ∧ idle.log = [] := by
  intro calls s w idle
  obtain ⟨hbracketed, hflag, -⟩ := Session.requests_bracketed (Server.transactionStore true) s calls
  obtain ⟨-, -, -, -, -, hidle, -⟩ := Session.requests_bracketed (Server.transactionStore false) s calls
  exact ⟨by decide, hbracketed, hflag.2 (by decide), (hidle rfl).1⟩

end Docbase
