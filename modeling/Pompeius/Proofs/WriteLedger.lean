import Pompeius.Proofs.WriteSteps

/-!
# No write is lost, and none is answered twice

The books of the write pipeline, user by user. What a user had left from an
earlier process and has written since is, in that order, what was accepted or
rejected, then what is queued, then what the worker queue will store. Everybody
who wrote is told of it once, in the order of the writes, however often the
stream was closed, the network turned off, the user changed or a write sent
again in between.

A write is stored for whoever is the user when its task runs, not when it was
issued; that these are the same is a fact about the order of the tasks.
-/

namespace Pompeius.Firestore

open Lib

variable {U M : Type} [DecidableEq U]

/-- The entries of one user. -/
def ofUser {α : Type} (u : U) (l : List (U × α)) : List α :=
  l.filterMap fun p => if p.1 = u then some p.2 else none

section

variable {α : Type} {u : U}

theorem ofUser_append (l l' : List (U × α)) : ofUser u (l ++ l') = ofUser u l ++ ofUser u l' :=
  List.filterMap_append ..

theorem ofUser_map {β : Type} (f : α → β) (l : List (U × α)) :
    ofUser u (l.map fun p => (p.1, f p.2)) = (ofUser u l).map f := by
  induction l with
  | nil => rfl
  | cons p l ih =>
      by_cases hp : p.1 = u
      · simp only [ofUser, List.map_cons, List.filterMap_cons, hp, if_true] at ih ⊢
        rw [ih]
      · simp only [ofUser, List.map_cons, List.filterMap_cons, hp, if_false] at ih ⊢
        exact ih

theorem ofUser_singleton_self (a : α) : ofUser u [(u, a)] = [a] := by simp [ofUser]

theorem ofUser_singleton_ne {v : U} (h : v ≠ u) (a : α) : ofUser u [(v, a)] = [] := by
  simp [ofUser, h]

end

def rows (bs : List (MutationBatch U M)) : List (U × M) := bs.map fun b => (b.user, b.mutations)

omit [DecidableEq U] in
theorem rows_append (bs bs' : List (MutationBatch U M)) :
    rows (bs ++ bs') = rows bs ++ rows bs' := List.map_append ..

/-- The writes that tasks will store, when they are run for a user. -/
def pending : U → List (Task U M) → List (U × M)
  | _, [] => []
  | user, .writeMutations m :: tasks => (user, m) :: pending user tasks
  | _, .handleCredentialChange user :: tasks => pending user tasks
  | user, _ :: tasks => pending user tasks

namespace Client

variable {c : Client U M} {u : U}

/-- The books of a user, who had left some writes from an earlier process. -/
structure Ledger (restored : List M) (u : U) (c : Client U M) : Prop where
  writes : restored ++ ofUser u c.issued =
    (ofUser u c.resolved).map Prod.fst ++ ofUser u (rows c.batches) ++
      ofUser u (pending c.currentUser c.tasks)
  calls : ofUser u c.issued =
    (ofUser u c.told).map Prod.fst ++ ofUser u (rows c.mutationCallbacks) ++
      ofUser u (pending c.currentUser c.tasks)
  told : ofUser u c.told = (ofUser u c.resolved).drop restored.length

end Client

omit [DecidableEq U] in
theorem pending_append (user : U) (tasks tasks' : List (Task U M)) :
    pending user (tasks ++ tasks') = pending user tasks ++ pending (Client.userAfter user tasks) tasks' := by
  induction tasks generalizing user with
  | nil => rfl
  | cons task tasks ih =>
      cases task with
      | writeMutations m => exact congrArg _ (ih user)
      | handleCredentialChange user' => exact ih user'
      | enableNetwork => exact ih user
      | disableNetwork => exact ih user
      | resumeStart n maybeToken => exact ih user

namespace Client

variable {c : Client U M} {u : U} {restored : List M}

def books (c : Client U M) :=
  (c.issued, c.resolved, c.told, c.batches, c.mutationCallbacks, pending c.currentUser c.tasks)

theorem Ledger.congr (h : Ledger restored u c) {c' : Client U M} (hbooks : c'.books = c.books) :
    Ledger restored u c' := by
  simp only [books, Prod.mk.injEq] at hbooks
  obtain ⟨hissued, hresolved, htold, hbatches, hcallbacks, hpending⟩ := hbooks
  constructor
  · rw [hissued, hresolved, hbatches, hpending]
    exact h.writes
  · rw [hissued, htold, hcallbacks, hpending]
    exact h.calls
  · rw [htold, hresolved]
    exact h.told

theorem ofUser_rows_self (c : Client U M) (bs : List (MutationBatch U M)) :
    ofUser c.currentUser (rows bs) =
      (bs.filter fun b => b.user = c.currentUser).map (·.mutations) := by
  induction bs with
  | nil => rfl
  | cons b bs ih =>
      have hcons : rows (b :: bs) = [(b.user, b.mutations)] ++ rows bs := rfl
      rw [hcons, ofUser_append, ih]
      by_cases hb : b.user = c.currentUser
      · rw [List.filter_cons_of_pos (by simpa using hb), hb, ofUser_singleton_self]
        rfl
      · rw [List.filter_cons_of_neg (by simpa using hb), ofUser_singleton_ne hb]
        rfl

/-- The rows of other users stay. -/
theorem ofUser_rows_filter (hu : c.currentUser ≠ u) (n : Nat) (bs : List (MutationBatch U M)) :
    ofUser u (rows (bs.filter fun b => !c.isRow n b)) = ofUser u (rows bs) := by
  induction bs with
  | nil => rfl
  | cons b bs ih =>
      have hcons : rows (b :: bs) = [(b.user, b.mutations)] ++ rows bs := rfl
      cases hrow : c.isRow n b with
      | false =>
          have hkeep : (b :: bs).filter (fun b => !c.isRow n b) =
              b :: bs.filter fun b => !c.isRow n b := List.filter_cons_of_pos (by simp [hrow])
          have hcons' : rows (b :: bs.filter fun b => !c.isRow n b) =
              [(b.user, b.mutations)] ++ rows (bs.filter fun b => !c.isRow n b) := rfl
          rw [hkeep, hcons', hcons, ofUser_append, ofUser_append, ih]
      | true =>
          have huser : b.user ≠ u := by
            simp only [isRow, decide_eq_true_eq] at hrow
            rw [hrow.1]
            exact hu
          rw [List.filter_cons_of_neg (by simp [hrow]), ih, hcons, ofUser_append,
            ofUser_singleton_ne huser]
          rfl

/-- The client as if this process had written every row. -/
def newest (c : Client U M) : Client U M := { c with batches := c.mutationCallbacks }

omit [DecidableEq U] in
theorem Base.newest_ordered (h : c.Base) : c.newest.Ordered := by
  obtain ⟨restored, hbatches⟩ := h.callbacks
  have hordered := h.ordered
  rw [Ordered, hbatches] at hordered
  exact (List.pairwise_append.mp hordered).2.1

/-- Either the first write of the queue is one of this process, or it has no
completion handler. -/
theorem Base.callback_cases (h : c.Base) {b : MutationBatch U M} {bs : List (MutationBatch U M)}
    (hqueue : c.queue = b :: bs) :
    (c.mutationCallbacks.find? (c.isRow b.batchId) = some b ∧ c.newest.queue = b :: bs) ∨
    (c.mutationCallbacks.find? (c.isRow b.batchId) = none ∧ c.newest.queue.length ≤ bs.length) := by
  obtain ⟨restored, hbatches⟩ := h.callbacks
  have hordered := h.ordered
  rw [Ordered, hbatches] at hordered
  obtain ⟨-, hnewest, hacross⟩ := List.pairwise_append.mp hordered
  have hsplit : (restored.filter fun b => b.user = c.currentUser) ++ c.newest.queue = b :: bs := by
    have happend : c.queue =
        (restored ++ c.mutationCallbacks).filter fun b => b.user = c.currentUser := by
      rw [queue, hbatches]
    rw [← hqueue, happend, List.filter_append]
    rfl
  cases hold : restored.filter fun b => b.user = c.currentUser with
  | nil =>
      rw [hold, List.nil_append] at hsplit
      have hmem : b ∈ c.newest.queue := by
        rw [hsplit]
        exact List.mem_cons_self
      exact .inl ⟨lookupMutationBatch_eq (c := c.newest) hnewest hmem, hsplit⟩
  | cons a rest =>
      rw [hold, List.cons_append] at hsplit
      injection hsplit with hab hrest
      subst hab
      have ha : a ∈ restored := (List.mem_filter.mp (hold ▸ List.mem_cons_self)).1
      refine .inr ⟨List.find?_eq_none.mpr fun b hb hrow => ?_, ?_⟩
      · have hlt := hacross a ha b hb
        simp only [isRow, decide_eq_true_eq] at hrow
        omega
      · rw [← hrest, List.length_append]
        exact Nat.le_add_left ..

/-- The first write of the queue has met its fate, in the books of its user. -/
theorem Ledger.settled_self (h : Ledger restored c.currentUser c) (hbase : c.Base)
    {b : MutationBatch U M} {bs : List (MutationBatch U M)} (hqueue : c.queue = b :: bs) (ok : Bool) :
    Ledger restored c.currentUser (c.settled b ok) := by
  have huser : b.user = c.currentUser := by
    have hmem : b ∈ c.queue := hqueue ▸ List.mem_cons_self
    simpa using (List.mem_filter.mp hmem).2
  have hrows : ofUser c.currentUser (rows c.batches) = (b :: bs).map (·.mutations) := by
    rw [← hqueue]
    exact ofUser_rows_self c c.batches
  have hrows' : ofUser c.currentUser (rows (c.settled b ok).batches) = bs.map (·.mutations) := by
    rw [← queue_settled hbase.ordered hqueue ok]
    exact ofUser_rows_self (c.settled b ok) (c.settled b ok).batches
  have hcalls : ofUser c.currentUser (rows c.mutationCallbacks) =
      c.newest.queue.map (·.mutations) := ofUser_rows_self c c.mutationCallbacks
  have hresolved : ofUser c.currentUser (c.settled b ok).resolved =
      ofUser c.currentUser c.resolved ++ [(b.mutations, ok)] := by
    rw [Client.settled, ofUser_append, ofUser_singleton_self]
  have hwrites := h.writes
  rw [hrows] at hwrites
  have hcallsEq := h.calls
  rw [hcalls] at hcallsEq
  -- how many of the writes of an earlier process are left
  have hlength : restored.length + (ofUser c.currentUser c.told).length + c.newest.queue.length =
      (ofUser c.currentUser c.resolved).length + (bs.length + 1) := by
    have hlen := congrArg List.length hwrites
    have hlen' := congrArg List.length hcallsEq
    simp only [List.length_append, List.length_map, List.length_cons] at hlen hlen'
    omega
  have htoldLength := congrArg List.length h.told
  rw [List.length_drop] at htoldLength
  have hwrites' : restored ++ ofUser c.currentUser c.issued =
      (ofUser c.currentUser (c.settled b ok).resolved).map Prod.fst ++
        ofUser c.currentUser (rows (c.settled b ok).batches) ++
          ofUser c.currentUser (pending c.currentUser c.tasks) := by
    rw [hresolved, hrows', hwrites]
    simp
  rcases hbase.callback_cases hqueue with ⟨hfind, hnewest⟩ | ⟨hfind, hnewest⟩
  · have htold : ofUser c.currentUser (c.settled b ok).told =
        ofUser c.currentUser c.told ++ [(b.mutations, ok)] := by
      rw [Client.settled, hfind, ofUser_append]
      show _ ++ ofUser c.currentUser [(b.user, b.mutations, ok)] = _
      rw [huser, ofUser_singleton_self]
    have hcalls' : ofUser c.currentUser (rows (c.settled b ok).mutationCallbacks) =
        bs.map (·.mutations) := by
      rw [← queue_settled (c := c.newest) hbase.newest_ordered hnewest ok, Client.settled,
        hbase.eraseP_callbacks]
      exact ofUser_rows_self c _
    refine ⟨hwrites', ?_, ?_⟩
    · show ofUser c.currentUser c.issued = _ ++ _ ++ ofUser c.currentUser (pending c.currentUser c.tasks)
      rw [htold, hcalls', hcallsEq, hnewest]
      simp
    · rw [hnewest, List.length_cons] at hlength
      rw [htold, hresolved, List.drop_append_of_le_length (by omega), h.told]
  · have htold : ofUser c.currentUser (c.settled b ok).told = ofUser c.currentUser c.told := by
      rw [Client.settled, hfind, ofUser_append]
      exact List.append_nil _
    have hcalls' : (c.settled b ok).mutationCallbacks = c.mutationCallbacks :=
      List.eraseP_of_forall_not fun a ha => List.find?_eq_none.mp hfind a ha
    refine ⟨hwrites', ?_, ?_⟩
    · rw [htold, hcalls']
      exact h.calls
    · have hnil : ofUser c.currentUser c.told = [] := List.length_eq_zero_iff.mp (by omega)
      rw [htold, hnil, hresolved, List.drop_eq_nil_of_le]
      rw [List.length_append, List.length_singleton]
      omega

/-- The first write of the queue has met its fate. -/
theorem Ledger.settled (h : Ledger restored u c) (hbase : c.Base) {b : MutationBatch U M}
    {bs : List (MutationBatch U M)} (hqueue : c.queue = b :: bs) (ok : Bool) :
    Ledger restored u (c.settled b ok) := by
  by_cases hu : c.currentUser = u
  · subst hu
    exact h.settled_self hbase hqueue ok
  · -- nothing of this concerns another user
    have hresolved : ofUser u (c.settled b ok).resolved = ofUser u c.resolved := by
      rw [Client.settled, ofUser_append, ofUser_singleton_ne hu, List.append_nil]
    have hrows : ofUser u (rows (c.settled b ok).batches) = ofUser u (rows c.batches) :=
      ofUser_rows_filter hu b.batchId c.batches
    have hcalls : ofUser u (rows (c.settled b ok).mutationCallbacks) =
        ofUser u (rows c.mutationCallbacks) := by
      rw [Client.settled, hbase.eraseP_callbacks]
      exact ofUser_rows_filter hu b.batchId c.mutationCallbacks
    have htold : ofUser u (c.settled b ok).told = ofUser u c.told := by
      rw [Client.settled, ofUser_append]
      cases hfind : c.mutationCallbacks.find? (c.isRow b.batchId) with
      | none => exact List.append_nil _
      | some callback =>
          have hrow := List.find?_some hfind
          simp only [isRow, decide_eq_true_eq] at hrow
          show _ ++ ofUser u [(callback.user, callback.mutations, ok)] = _
          rw [hrow.1, ofUser_singleton_ne hu, List.append_nil]
    constructor
    · rw [hresolved, hrows]
      exact h.writes
    · rw [htold, hcalls]
      exact h.calls
    · rw [htold, hresolved]
      exact h.told

omit [DecidableEq U] in
theorem pending_quiet {task : Task U M} (hquiet : ∀ user, pending user [task] = []) (c : Client U M) :
    pending c.currentUser (c.tasks ++ [task]) = pending c.currentUser c.tasks := by
  rw [pending_append, hquiet, List.append_nil]

/-- The books are kept through every step. -/
theorem Ledger.step {e : Event U M} {c' : Client U M} (h : Ledger restored u c) (hinv : c.Inv)
    (hs : Step c e c') : Ledger restored u c' := by
  cases hs with
  | write m =>
      have hpending : pending c.currentUser (c.tasks ++ [.writeMutations m]) =
          pending c.currentUser c.tasks ++ [(c.user, m)] := by
        rw [pending_append, hinv.user]
        rfl
      constructor
      · show restored ++ ofUser u (c.issued ++ [(c.user, m)]) = _ ++ _ ++
          ofUser u (pending c.currentUser (c.tasks ++ [.writeMutations m]))
        rw [hpending, ofUser_append, ofUser_append, ← List.append_assoc, h.writes, List.append_assoc]
        rfl
      · show ofUser u (c.issued ++ [(c.user, m)]) = _ ++ _ ++
          ofUser u (pending c.currentUser (c.tasks ++ [.writeMutations m]))
        rw [hpending, ofUser_append, ofUser_append, h.calls, List.append_assoc]
        rfl
      · exact h.told
  | announce user =>
      have hpending := pending_quiet
        (show ∀ v, pending v [(.handleCredentialChange user : Task U M)] = [] from fun _ => rfl) c
      exact h.congr (by rw [books, books, ← hpending]; rfl)
  | setNetwork enabled =>
      have hpending := pending_quiet
        (show ∀ v, pending v [(if enabled then .enableNetwork else .disableNetwork : Task U M)] = []
          from fun _ => by cases enabled <;> rfl) c
      exact h.congr (by rw [books, books, ← hpending]; rfl)
  | @token i request hrequest failure =>
      have hpending := pending_quiet
        (show ∀ v, pending v [(.resumeStart request.initialCloseCount (c.tokenFor request failure) :
          Task U M)] = [] from fun _ => rfl) c
      exact h.congr (by rw [books, books, ← hpending]; rfl)
  | @stored m tasks htasks =>
      have hpending : pending c.currentUser c.tasks =
          [(c.currentUser, m)] ++ pending c.currentUser tasks := by
        rw [htasks]
        rfl
      constructor
      · show restored ++ ofUser u c.issued = _ ++
          ofUser u (rows (c.batches ++ [⟨c.currentUser, c.nextBatchId, m⟩])) ++
            ofUser u (pending c.currentUser tasks)
        rw [h.writes, hpending, rows_append, ofUser_append, ofUser_append]
        simp only [List.append_assoc]
        rfl
      · show ofUser u c.issued = _ ++
          ofUser u (rows (c.mutationCallbacks ++ [⟨c.currentUser, c.nextBatchId, m⟩])) ++
            ofUser u (pending c.currentUser tasks)
        rw [h.calls, hpending, rows_append, ofUser_append, ofUser_append]
        simp only [List.append_assoc]
        rfl
      · exact h.told
  | switched htasks hnetwork => exact h.congr (by rw [books, books, htasks]; rfl)
  | switchedOffline htasks hnetwork => exact h.congr (by rw [books, books, htasks]; rfl)
  | enabled htasks => exact h.congr (by rw [books, books, htasks]; rfl)
  | disabled htasks => exact h.congr (by rw [books, books, htasks]; rfl)
  | stale htasks hn => exact h.congr (by rw [books, books, htasks]; rfl)
  | opened htasks hstate => exact h.congr (by rw [books, books, htasks]; rfl)
  | unauthorized htasks hstate => exact h.congr (by rw [books, books, htasks]; rfl)
  | restarted hstate => exact h.congr rfl
  | idled hidle => exact h.congr rfl
  | greeting hhandshake hstream => exact h.congr rfl
  | taken hhandshake hpipeline hstream => exact h.congr rfl
  | greeted hhandshake hstream => exact h.congr rfl
  | @acknowledged b answered rest hhandshake hpipeline hstream =>
      obtain ⟨more, hqueue⟩ := hinv.queue_eq hpipeline
      have hread : Ledger restored u { c with
          writePipeline := answered ++ rest
          grpcStream := some ⟨c.currentUser, messages rest, answered.length⟩ } := h.congr rfl
      exact (hread.settled { hinv.toBase with } hqueue true).congr rfl
  | finished hstream hpipeline => exact h.congr rfl
  | failed hstream hkeep => exact h.congr rfl
  | @rejected e b rest he hhandshake hpipeline =>
      obtain ⟨more, hqueue⟩ := hinv.queue_eq hpipeline
      have hcut : Ledger restored u { c.cut .initial with writePipeline := rest } := h.congr rfl
      have hbase : ({ c.cut .initial with writePipeline := rest } : Client U M).Base :=
        { hinv.toBase.cut (s := .initial) (by decide) with }
      exact (hcut.settled hbase hqueue false).congr rfl

theorem ledger_launched (batches : List (MutationBatch U M)) (user : U) (log : List M) :
    Ledger (ofUser u (rows batches)) u (launched batches user log) where
  writes := by
    show ofUser u (rows batches) ++ [] = [] ++ ofUser u (rows batches) ++ []
    rw [List.nil_append]
  calls := rfl
  told := List.drop_nil.symm

section

variable {batches : List (MutationBatch U M)}
  (hbatches : batches.Pairwise fun a b => a.batchId < b.batchId) {user : U} {log : List M}
  {c₀ : Client U M} (h₀ : initialized batches user log = .ok c₀) {evs : List (Event U M)}
  (h : run next c₀ evs = some c)

include hbatches h₀ h

/-- What a user had left and has issued since is what was decided, what is
queued and what will be stored; who issued a write of this process hears of it
once, when it is decided. The queue can be left to another process. -/
theorem writes_of_run (u : U) :
    ofUser u (rows batches) ++ ofUser u c.issued =
        (ofUser u c.resolved).map Prod.fst ++ ofUser u (rows c.batches) ++
          ofUser u (pending c.currentUser c.tasks) ∧
      ofUser u c.told = (ofUser u c.resolved).drop (ofUser u (rows batches)).length ∧
      c.batches.Pairwise fun a b => a.batchId < b.batchId := by
  rw [initialized_eq hbatches] at h₀
  cases h₀
  have hledger : c.Inv ∧ Ledger (ofUser u (rows batches)) u c := by
    refine run_invariant (P := fun c => c.Inv ∧ Ledger (ofUser u (rows batches)) u c) ?_
      ⟨inv_launched hbatches, ledger_launched batches user log⟩ h
    rintro c e c' ⟨hinv, hledger⟩ hn
    have hs := step_of_next hinv hn
    exact ⟨hinv.step hs, hledger.step hinv hs⟩
  exact ⟨hledger.2.writes, hledger.2.told, hledger.1.ordered⟩

end

theorem writes_of_run_switched :
    ∃ c : Client Bool Nat,
      run next (launched [⟨true, 1, 3⟩] true [])
        [.write 7, .announce false, .write 8, .work, .work, .work] = some c ∧
        ([3] ++ ofUser true c.issued = (ofUser true c.resolved).map Prod.fst ++
            ofUser true (rows c.batches) ++ ofUser true (pending c.currentUser c.tasks) ∧
          ofUser true c.told = (ofUser true c.resolved).drop 1 ∧
          c.batches.Pairwise fun a b => a.batchId < b.batchId) := by
  have hsome : (run next (launched [⟨true, 1, 3⟩] true [] : Client Bool Nat)
      [.write 7, .announce false, .write 8, .work, .work, .work]).isSome = true := rfl
  have h₀ : initialized [⟨true, 1, 3⟩] true [] =
      .ok (launched [⟨true, 1, 3⟩] true [] : Client Bool Nat) := rfl
  obtain ⟨c, hrun⟩ := Option.isSome_iff_exists.mp hsome
  exact ⟨c, hrun, writes_of_run (List.pairwise_singleton _ _) h₀ hrun true⟩

/-- A stream is open under a token of the user whose writes it carries. After
its handshake it has sent the pipeline, the first ten writes of that user's
queue, in order, and nothing besides; before, nothing but the handshake. -/
theorem sent_of_run {batches : List (MutationBatch U M)}
    (hbatches : batches.Pairwise fun a b => a.batchId < b.batchId) {user : U} {log : List M}
    {c₀ : Client U M} (h₀ : initialized batches user log = .ok c₀) {evs : List (Event U M)}
    (h : run next c₀ evs = some c) {g : GrpcStream U M} (hg : c.grpcStream = some g) :
    g.user = c.currentUser ∧ c.writePipeline = c.queue.take kMaxPendingWrites ∧
      (if c.handshakeComplete then
        ∃ answered rest, c.writePipeline = answered ++ rest ∧ g.unread = answered.length ∧
          g.outbox = messages rest
      else g = ⟨c.currentUser, [.handshake], 0⟩ ∨ g = ⟨c.currentUser, [], 1⟩) ∧
      ∀ b ∈ c.writePipeline,
        b.mutations ∈ ofUser g.user (rows batches) ++ ofUser g.user c.issued := by
  have hinv := inv_of_run hbatches h₀ h
  obtain ⟨huser, hwindow, houtbox⟩ := hinv.stream hg
  refine ⟨huser, hwindow, houtbox, fun b hb => ?_⟩
  have hmem : b ∈ c.queue := hinv.prefix_queue.subset hb
  have hrow : b.mutations ∈ ofUser c.currentUser (rows c.batches) := by
    rw [ofUser_rows_self]
    exact List.mem_map.mpr ⟨b, hmem, rfl⟩
  rw [huser, (writes_of_run hbatches h₀ h c.currentUser).1]
  exact List.mem_append_left _ (List.mem_append_right _ hrow)

theorem sent_of_run_resumed :
    ∃ c : Client Bool Nat,
      run next (launched [⟨true, 1, 3⟩] true [])
        [.write 7, .work, .token 0 none, .work, .take, .read, .take] = some c ∧
        ∃ g, c.grpcStream = some g ∧ g.user = c.currentUser ∧
          ∀ b ∈ c.writePipeline, b.mutations ∈ [3] ++ ofUser g.user c.issued := by
  have hview : (run next (launched [⟨true, 1, 3⟩] true [] : Client Bool Nat)
      [.write 7, .work, .token 0 none, .work, .take, .read, .take]).map
        (fun c => c.grpcStream) = some (some ⟨true, [.mutations 7], 1⟩) := rfl
  have h₀ : initialized [⟨true, 1, 3⟩] true [] =
      .ok (launched [⟨true, 1, 3⟩] true [] : Client Bool Nat) := rfl
  obtain ⟨c, hrun, hg⟩ := Option.map_eq_some_iff.mp hview
  obtain ⟨huser, -, -, hall⟩ := sent_of_run (List.pairwise_singleton _ _) h₀ hrun hg
  exact ⟨c, hrun, _, hg, huser, hall⟩

end Client

end Pompeius.Firestore
