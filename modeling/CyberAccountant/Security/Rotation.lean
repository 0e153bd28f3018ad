import CyberAccountant.Security.Sessions

/-! The refresh tokens of a user under any interleaving of logins, refreshes, logouts and revocations of all.  A token
is exchanged once, and none that was given before a revocation, nor any obtained from one, is accepted after it, as
long as a refresh deletes the marker that it has read and no revocation overlaps with the writes of a new token. -/

namespace CyberAccountant.Security.Sessions

open CyberAccountant.Library

/-! ### Requests one command at a time -/

/-- What no table holds: which token each replaces, the exchanges, the tokens that were given when a revocation of all
was called, and those of the revocations that have returned. -/
structure History where
  parent : Table Jti Jti
  exchanges : List (Jti × Jti)
  called : Table Nat (List Jti)
  swept : List Jti

/-- The history after request `n` has sent the command of its stage. -/
def History.after (h : History) (n : Nat) (s : SessionStore) : Stage → History
  | .drawing (some old) => { h with parent := h.parent.put s.drawn old }
  | .answering (some old) new => { h with exchanges := (old, new) :: h.exchanges }
  | .reading => { h with called := h.called.put n s.given }
  | .droppingIndex => { h with swept := (h.called n).getD [] ++ h.swept }
  | _ => h

structure SessionWorld where
  store : SessionStore
  requests : Table Nat Stage
  history : History

/-- One step: a request starts or sends its next command where `Guard` admits it, or the user changes. -/
inductive SessionStep (Guard : SessionWorld → Stage → Prop) : SessionWorld → SessionWorld → Prop where
  | start (w : SessionWorld) (n : Nat) (st : Stage) (hFree : w.requests n = none) (hStart : st.IsStart) :
      SessionStep Guard w { w with requests := w.requests.put n st }
  | next (w : SessionWorld) (n : Nat) (st : Stage) (c : SessionCommand) (next : c.Reply → Stage)
      (hHere : w.requests n = some st) (hStep : st.step = some ⟨c, next⟩) (hGuard : Guard w st) :
      SessionStep Guard w
        ⟨(exec c w.store).2, w.requests.put n (next (exec c w.store).1), w.history.after n w.store st⟩
  | user (w : SessionWorld) (passwordOk userThere : Bool) :
      SessionStep Guard w { w with store := { w.store with passwordOk, userThere } }

/-- The token was given before a revocation of all that has returned, or has been obtained from such a token. -/
def Revoked (h : History) (jti : Jti) : Prop :=
  ∃ first ∈ h.swept, Relation.ReflTransGen (fun old new => h.parent new = some old) first jti

structure SessionsSafe (w : SessionWorld) : Prop where
  once : (w.history.exchanges.map Prod.fst).Nodup
  refused : ∀ jti ∈ w.store.given, Revoked w.history jti → (exec (.get jti) w.store).1 = false

/-! ### When a step is in order -/

namespace Stage

/-- A refresh has found the marker and not yet put the new token in the set. -/
def Rotates : Stage → Prop
  | findingUser _ | rotating _ | listing (some _) | drawing (some _) | setting (some _) _ | adding (some _) _ => True
  | _ => False

/-- The markers that a revocation of all has yet to delete. -/
def pending? : Stage → Option (List Jti)
  | sweeping jti rest => some (jti :: rest)
  | droppingIndex => some []
  | _ => none

end Stage

/-- A revocation of all reads the set only while no refresh is between its read and its entry in the set, a refresh
finds a marker and a login enters a token only while no revocation of all is at its deletes, and a refresh deletes a
marker that is there. -/
def Apart (w : SessionWorld) : Stage → Prop
  | .reading => ∀ n st, w.requests n = some st → ¬st.Rotates
  | .looking jti => jti ∈ w.store.live → ∀ n st, w.requests n = some st → st.pending? = none
  | .adding none _ => ∀ n st, w.requests n = some st → st.pending? = none
  | .rotating jti => jti ∈ w.store.live
  | _ => True

/-! ### The tokens of a request -/

namespace Stage

/-- The token that the request has presented and that has been verified. -/
def presented? : Stage → Option Jti
  | looking jti | findingUser jti | droppingGone jti | rotating jti | dropping jti => some jti
  | listing old | drawing old | setting old _ | adding old _ | expiring old _ | answering old _ => old
  | _ => none

/-- The token that the request has replaced. -/
def spent? : Stage → Option Jti
  | listing old | drawing old | setting old _ | adding old _ | expiring old _ | answering old _ => old
  | _ => none

/-- The token that the request has drawn. -/
def new? : Stage → Option Jti
  | setting _ new | adding _ new | expiring _ new | answering _ new => some new
  | _ => none

/-- The token that the request has drawn and not yet put in the set. -/
def unentered? : Stage → Option Jti
  | setting _ new | adding _ new => some new
  | _ => none

theorem new_of_unentered {st : Stage} {jti : Jti} (h : st.unentered? = some jti) : st.new? = some jti := by
  cases st <;> first | exact h | cases h

theorem presented_of_spent {st : Stage} {jti : Jti} (h : st.spent? = some jti) : st.presented? = some jti := by
  cases st <;> first | exact h | cases h

theorem sweep_tokens (jtis : List Jti) :
    (sweep jtis).presented? = none ∧ (sweep jtis).spent? = none ∧ (sweep jtis).new? = none := by
  cases jtis <;> exact ⟨rfl, rfl, rfl⟩

theorem not_rotates_of_pending {st : Stage} {jtis : List Jti} (h : st.pending? = some jtis) : ¬st.Rotates := by
  cases st <;> first | exact id | cases h

theorem sweep_pending (jtis : List Jti) : (sweep jtis).pending? = some jtis := by
  cases jtis <;> rfl

end Stage

/-- No two requests have the same token. -/
def Distinct (token? : Stage → Option Jti) (requests : Table Nat Stage) : Prop :=
  ∀ n n' st st' jti, requests n = some st → requests n' = some st' → token? st = some jti → token? st' = some jti → n = n'

section

variable {w w' : SessionWorld} {n : Nat} {st st' : Stage} {requests : Table Nat Stage}

/-- A request that goes on as a reply tells. -/
theorem stage_ite {P : Stage → Prop} {b : Bool} {yes no : Stage} (hYes : b = true → P yes) (hNo : b = false → P no) :
    P (if b then yes else no) := by
  cases b with
  | true => exact hYes rfl
  | false => exact hNo rfl

theorem forall_put {P : Nat → Stage → Prop} (hHere : P n st')
    (hOthers : ∀ n' st, n' ≠ n → requests n' = some st → P n' st) :
    ∀ n' st, requests.put n st' n' = some st → P n' st := by
  intro n' st h
  rcases Table.put_eq_some.mp h with ⟨rfl, rfl⟩ | ⟨hNe, h⟩
  · exact hHere
  · exact hOthers n' st hNe h

/-- Two requests, either of which may be the one that goes on. -/
theorem forall_put_pair {P : Stage → Stage → Prop} (hHere : P st' st')
    (hFirst : ∀ n' st, requests n' = some st → P st' st) (hSecond : ∀ n' st, requests n' = some st → P st st')
    (hOthers : ∀ n₁ st₁ n₂ st₂, requests n₁ = some st₁ → requests n₂ = some st₂ → P st₁ st₂) :
    ∀ n₁ st₁ n₂ st₂, requests.put n st' n₁ = some st₁ → requests.put n st' n₂ = some st₂ → P st₁ st₂ := by
  intro n₁ st₁ n₂ st₂ h₁ h₂
  rcases Table.put_eq_some.mp h₁ with ⟨-, rfl⟩ | ⟨-, hThere₁⟩
  · rcases Table.put_eq_some.mp h₂ with ⟨-, rfl⟩ | ⟨-, hThere₂⟩
    · exact hHere
    · exact hFirst n₂ st₂ hThere₂
  · rcases Table.put_eq_some.mp h₂ with ⟨-, rfl⟩ | ⟨-, hThere₂⟩
    · exact hSecond n₁ st₁ hThere₁
    · exact hOthers n₁ st₁ n₂ st₂ hThere₁ hThere₂

/-- A request that comes to have a token that none of the others has. -/
theorem Distinct.put {token? : Stage → Option Jti} (h : Distinct token? requests)
    (hNew : ∀ jti, token? st' = some jti → ∀ n' st, n' ≠ n → requests n' = some st → token? st ≠ some jti) :
    Distinct token? (requests.put n st') := by
  intro n₁ n₂ st₁ st₂ jti h₁ h₂ hJti₁ hJti₂
  rcases Table.put_eq_some.mp h₁ with ⟨rfl, rfl⟩ | ⟨hNe₁, hThere₁⟩
  · rcases Table.put_eq_some.mp h₂ with ⟨rfl, -⟩ | ⟨hNe₂, hThere₂⟩
    · rfl
    · exact absurd hJti₂ (hNew jti hJti₁ n₂ st₂ hNe₂ hThere₂)
  · rcases Table.put_eq_some.mp h₂ with ⟨rfl, rfl⟩ | ⟨-, hThere₂⟩
    · exact absurd hJti₁ (hNew jti hJti₂ n₁ st₁ hNe₁ hThere₁)
    · exact h n₁ n₂ st₁ st₂ jti hThere₁ hThere₂ hJti₁ hJti₂

/-- A request that keeps its token or gives it up. -/
theorem Distinct.keep {token? : Stage → Option Jti} (h : Distinct token? requests) (hHere : requests n = some st)
    (hKeep : ∀ jti, token? st' = some jti → token? st = some jti) : Distinct token? (requests.put n st') :=
  h.put fun jti hJti n' st'' hNe hThere hSame => hNe (h n' n st'' st jti hThere hHere hSame (hKeep jti hJti))

/-! ### What has been drawn and given -/

structure TokensOk (w : SessionWorld) : Prop where
  live : ∀ jti ∈ w.store.live, jti < w.store.drawn
  index : ∀ jti ∈ w.store.index, jti < w.store.drawn
  given : ∀ jti ∈ w.store.given, jti < w.store.drawn
  swept : ∀ jti ∈ w.history.swept, jti ∈ w.store.given
  called : ∀ n jtis, w.history.called n = some jtis → ∀ jti ∈ jtis, jti ∈ w.store.given
  parent : ∀ new old, w.history.parent new = some old → new < w.store.drawn ∧ old < w.store.drawn
  presented : ∀ n st, w.requests n = some st → ∀ jti, st.presented? = some jti → jti ∈ w.store.given
  new : ∀ n st, w.requests n = some st → ∀ jti, st.new? = some jti →
    jti < w.store.drawn ∧ jti ∉ w.store.given ∧ w.history.parent jti = st.spent?
  distinct : Distinct Stage.new? w.requests

/-- A step that neither draws nor gives a token. -/
theorem TokensOk.advance (h : TokensOk w) (hHere : w.requests n = some st) {store : SessionStore} {history : History}
    (hDrawn : store.drawn = w.store.drawn) (hGiven : store.given = w.store.given)
    (hLive : ∀ jti ∈ store.live, jti < w.store.drawn) (hIndex : ∀ jti ∈ store.index, jti < w.store.drawn)
    (hParent : history.parent = w.history.parent)
    (hSwept : ∀ jti ∈ history.swept, jti ∈ w.store.given)
    (hCalled : ∀ n jtis, history.called n = some jtis → ∀ jti ∈ jtis, jti ∈ w.store.given)
    (hPresented : ∀ jti, st'.presented? = some jti → jti ∈ w.store.given)
    (hNew : ∀ jti, st'.new? = some jti → st.new? = some jti ∧ st'.spent? = st.spent?) :
    TokensOk ⟨store, w.requests.put n st', history⟩ where
  live := hDrawn ▸ hLive
  index := hDrawn ▸ hIndex
  given := by
    rw [hDrawn, hGiven]
    exact h.given
  swept := hGiven ▸ hSwept
  called := hGiven ▸ hCalled
  parent := by
    rw [hDrawn, hParent]
    exact h.parent
  presented := by
    rw [hGiven]
    exact forall_put hPresented fun n' st _ hThere => h.presented n' st hThere
  new := by
    rw [hDrawn, hGiven, hParent]
    refine forall_put (fun jti hJti => ?_) fun n' st _ hThere => h.new n' st hThere
    rw [(hNew jti hJti).2]
    exact h.new n st hHere jti (hNew jti hJti).1
  distinct := h.distinct.keep hHere fun jti hJti => (hNew jti hJti).1

theorem TokensOk.draw (h : TokensOk w) {old : Option Jti} (hHere : w.requests n = some (.drawing old)) :
    TokensOk ⟨{ w.store with drawn := w.store.drawn + 1 }, w.requests.put n (.setting old w.store.drawn),
      w.history.after n w.store (.drawing old)⟩ := by
  have hUndrawn : w.store.drawn ∉ w.store.given := fun hMem => absurd (h.given _ hMem) (Nat.lt_irrefl _)
  have hOrphan : w.history.parent w.store.drawn = none := by
    cases hParent : w.history.parent w.store.drawn with
    | none => rfl
    | some p => exact absurd (h.parent _ p hParent).1 (Nat.lt_irrefl _)
  have hSame : ∀ jti, jti ≠ w.store.drawn →
      (w.history.after n w.store (.drawing old)).parent jti = w.history.parent jti := fun jti hNe => by
    cases old with
    | none => rfl
    | some old => exact Table.put_ne hNe
  have hHistory : (w.history.after n w.store (.drawing old)).swept = w.history.swept ∧
      (w.history.after n w.store (.drawing old)).called = w.history.called := by
    cases old <;> exact ⟨rfl, rfl⟩
  have hNew : (w.history.after n w.store (.drawing old)).parent w.store.drawn = old := by
    cases old with
    | none => exact hOrphan
    | some old => exact Table.put_same _ _ _
  refine ⟨fun jti hJti => ?_, fun jti hJti => ?_, fun jti hJti => ?_, ?_, ?_, fun new old' hParent => ?_, ?_, ?_, ?_⟩
  · exact Nat.lt_succ_of_lt (h.live jti hJti)
  · exact Nat.lt_succ_of_lt (h.index jti hJti)
  · exact Nat.lt_succ_of_lt (h.given jti hJti)
  · rw [hHistory.1]
    exact h.swept
  · rw [hHistory.2]
    exact h.called
  · by_cases hDrawn : new = w.store.drawn
    · rw [hDrawn, hNew] at hParent
      have hOld := h.presented n _ hHere old' hParent
      exact ⟨hDrawn ▸ Nat.lt_succ_self _, Nat.lt_succ_of_lt (h.given old' hOld)⟩
    · rw [hSame new hDrawn] at hParent
      exact ⟨Nat.lt_succ_of_lt (h.parent new old' hParent).1, Nat.lt_succ_of_lt (h.parent new old' hParent).2⟩
  · exact forall_put (fun jti hJti => h.presented n _ hHere jti hJti) fun n' st _ hThere => h.presented n' st hThere
  · refine forall_put (fun jti hJti => ?_) fun n' st _ hThere jti hJti => ?_
    · cases hJti
      exact ⟨Nat.lt_succ_self _, hUndrawn, hNew⟩
    · obtain ⟨hLt, hNotGiven, hParent⟩ := h.new n' st hThere jti hJti
      exact ⟨Nat.lt_succ_of_lt hLt, hNotGiven, (hSame jti (Nat.ne_of_lt hLt)).trans hParent⟩
  · refine h.distinct.put fun jti hJti n' st hNe hThere hSame' => ?_
    cases hJti
    exact absurd (h.new n' st hThere _ hSame').1 (Nat.lt_irrefl _)

theorem TokensOk.answer (h : TokensOk w) {old : Option Jti} {new : Jti}
    (hHere : w.requests n = some (.answering old new)) :
    TokensOk ⟨{ w.store with given := w.store.given.insert new }, w.requests.put n .done,
      w.history.after n w.store (.answering old new)⟩ := by
  obtain ⟨hLt, -, -⟩ := h.new n _ hHere new rfl
  have hHistory : (w.history.after n w.store (.answering old new)).swept = w.history.swept ∧
      (w.history.after n w.store (.answering old new)).called = w.history.called ∧
      (w.history.after n w.store (.answering old new)).parent = w.history.parent := by
    cases old <;> exact ⟨rfl, rfl, rfl⟩
  have hMore : ∀ jti ∈ w.store.given, jti ∈ w.store.given.insert new := fun jti hJti => List.mem_insert_of_mem hJti
  refine ⟨h.live, h.index, fun jti hJti => ?_, ?_, ?_, ?_, ?_, ?_, ?_⟩
  · rcases List.mem_insert_iff.mp hJti with rfl | hJti
    · exact hLt
    · exact h.given jti hJti
  · rw [hHistory.1]
    exact fun jti hJti => hMore jti (h.swept jti hJti)
  · rw [hHistory.2.1]
    exact fun n jtis hCalled jti hJti => hMore jti (h.called n jtis hCalled jti hJti)
  · rw [hHistory.2.2]
    exact h.parent
  · exact forall_put nofun fun n' st _ hThere jti hJti => hMore jti (h.presented n' st hThere jti hJti)
  · rw [hHistory.2.2]
    refine forall_put nofun fun n' st hNe hThere jti hJti => ?_
    obtain ⟨hLt', hNotGiven, hParent⟩ := h.new n' st hThere jti hJti
    refine ⟨hLt', fun hMem => ?_, hParent⟩
    rcases List.mem_insert_iff.mp hMem with rfl | hMem
    · exact hNe (h.distinct n' n st _ jti hThere hHere hJti rfl)
    · exact hNotGiven hMem
  · exact h.distinct.keep hHere nofun

variable {Guard : SessionWorld → Stage → Prop}

theorem live_filter {jti : Jti} (h : TokensOk w) : ∀ j ∈ w.store.live.filter (· ≠ jti), j < w.store.drawn :=
  fun j hj => h.live j (List.mem_filter.mp hj).1

/-- A new token that is put beside tokens that were drawn has been drawn too. -/
theorem TokensOk.insert_new (h : TokensOk w) (hHere : w.requests n = some st) {new : Jti} (hNew : st.new? = some new)
    {tokens : List Jti} (hTokens : ∀ jti ∈ tokens, jti < w.store.drawn) :
    ∀ jti ∈ tokens.insert new, jti < w.store.drawn := by
  intro jti hJti
  rcases List.mem_insert_iff.mp hJti with rfl | hJti
  · exact (h.new n st hHere jti hNew).1
  · exact hTokens jti hJti

theorem TokensOk.start (h : TokensOk w) (hStart : st.IsStart) :
    TokensOk { w with requests := w.requests.put n st } := by
  have hNothing : st.presented? = none ∧ st.new? = none := by
    cases st <;> first | exact ⟨rfl, rfl⟩ | exact hStart.elim
  refine ⟨h.live, h.index, h.given, h.swept, h.called, h.parent, ?_, ?_, ?_⟩
  · refine forall_put (fun jti hJti => ?_) fun n' st _ hThere => h.presented n' st hThere
    cases hNothing.1.symm.trans hJti
  · refine forall_put (fun jti hJti => ?_) fun n' st _ hThere => h.new n' st hThere
    cases hNothing.2.symm.trans hJti
  · refine h.distinct.put fun jti hJti => ?_
    cases hNothing.2.symm.trans hJti

/-- A revocation of all has swept what was given when it was called. -/
theorem TokensOk.dropIndex (h : TokensOk w) (hHere : w.requests n = some .droppingIndex) :
    TokensOk ⟨{ w.store with index := [] }, w.requests.put n .done, w.history.after n w.store .droppingIndex⟩ := by
  refine h.advance hHere rfl rfl h.live nofun rfl (fun jti hJti => ?_) h.called nofun nofun
  rcases List.mem_append.mp hJti with hJti | hJti
  · cases hCalled : w.history.called n with
    | none =>
      rw [hCalled] at hJti
      cases hJti
    | some jtis =>
      rw [hCalled] at hJti
      exact h.called n jtis hCalled jti hJti
  · exact h.swept jti hJti

theorem TokensOk.step (h : TokensOk w) (hStep : SessionStep Guard w w') : TokensOk w' := by
  cases hStep with
  | user passwordOk userThere =>
    exact ⟨h.live, h.index, h.given, h.swept, h.called, h.parent, h.presented, h.new, h.distinct⟩
  | start n st hFree hStart => exact h.start hStart
  | next n st c next hHere hCommand hGuard =>
    have hQuiet : ∀ st', (∀ jti, st'.presented? = some jti → jti ∈ w.store.given) →
        (∀ jti, st'.new? = some jti → st.new? = some jti ∧ st'.spent? = st.spent?) →
        TokensOk ⟨w.store, w.requests.put n st', w.history⟩ := fun st' hPresented hNew =>
      h.advance hHere rfl rfl h.live h.index rfl h.swept h.called hPresented hNew
    have hDone : TokensOk ⟨w.store, w.requests.put n .done, w.history⟩ := hQuiet .done nofun nofun
    have hPresented := h.presented n st hHere
    cases st with
    | checkingPassword =>
      cases hCommand
      exact stage_ite (P := fun st => TokensOk ⟨w.store, w.requests.put n st, w.history⟩)
        (fun _ => hQuiet _ nofun nofun) fun _ => hDone
    | verifyingRefresh jti =>
      cases hCommand
      refine stage_ite (P := fun st => TokensOk ⟨w.store, w.requests.put n st, w.history⟩)
        (fun hGiven => hQuiet _ (fun j hj => ?_) nofun) fun _ => hDone
      cases hj
      exact of_decide_eq_true hGiven
    | verifyingLogout jti =>
      cases hCommand
      refine stage_ite (P := fun st => TokensOk ⟨w.store, w.requests.put n st, w.history⟩)
        (fun hGiven => hQuiet _ (fun j hj => ?_) nofun) fun _ => hDone
      cases hj
      exact of_decide_eq_true hGiven
    | looking jti =>
      cases hCommand
      exact stage_ite (P := fun st => TokensOk ⟨w.store, w.requests.put n st, w.history⟩)
        (fun _ => hQuiet _ hPresented nofun) fun _ => hDone
    | findingUser jti =>
      cases hCommand
      exact stage_ite (P := fun st => TokensOk ⟨w.store, w.requests.put n st, w.history⟩)
        (fun _ => hQuiet _ hPresented nofun) fun _ => hQuiet _ hPresented nofun
    | droppingGone jti | dropping jti =>
      cases hCommand
      exact h.advance hHere rfl rfl (live_filter h) h.index rfl h.swept h.called nofun nofun
    | rotating jti =>
      cases hCommand
      exact h.advance hHere rfl rfl (live_filter h) h.index rfl h.swept h.called hPresented nofun
    | listing old =>
      cases hCommand
      exact hQuiet _ hPresented nofun
    | drawing old =>
      cases hCommand
      exact h.draw hHere
    | setting old new =>
      cases hCommand
      exact h.advance hHere rfl rfl (h.insert_new hHere rfl h.live) h.index rfl h.swept h.called hPresented
        fun jti hJti => ⟨hJti, rfl⟩
    | adding old new =>
      cases hCommand
      exact h.advance hHere rfl rfl h.live (h.insert_new hHere rfl h.index) rfl h.swept h.called hPresented
        fun jti hJti => ⟨hJti, rfl⟩
    | expiring old new =>
      cases hCommand
      exact hQuiet _ hPresented fun jti hJti => ⟨hJti, rfl⟩
    | answering old new =>
      cases hCommand
      exact h.answer hHere
    | reading =>
      cases hCommand
      refine h.advance hHere rfl rfl h.live h.index rfl h.swept (fun n' jtis hCalled => ?_) (fun jti hJti => ?_)
        fun jti hJti => ?_
      · rcases Table.put_eq_some.mp hCalled with ⟨-, rfl⟩ | ⟨-, hCalled⟩
        · exact fun jti hJti => hJti
        · exact h.called n' jtis hCalled
      · cases (Stage.sweep_tokens _).1.symm.trans hJti
      · cases (Stage.sweep_tokens _).2.2.symm.trans hJti
    | sweeping jti rest =>
      cases hCommand
      refine h.advance hHere rfl rfl (live_filter h) h.index rfl h.swept h.called (fun j hj => ?_) fun j hj => ?_
      · cases (Stage.sweep_tokens _).1.symm.trans hj
      · cases (Stage.sweep_tokens _).2.2.symm.trans hj
    | droppingIndex =>
      cases hCommand
      exact h.dropIndex hHere
    | done => cases hCommand

/-! ### A token is exchanged once -/

structure ExchangesOk (w : SessionWorld) : Prop where
  distinct : Distinct Stage.spent? w.requests
  spent : ∀ n st, w.requests n = some st → ∀ jti, st.spent? = some jti →
    jti ∉ w.store.live ∧ jti ∉ w.history.exchanges.map Prod.fst
  exchanged : ∀ jti ∈ w.history.exchanges.map Prod.fst, jti ∈ w.store.given ∧ jti ∉ w.store.live
  once : (w.history.exchanges.map Prod.fst).Nodup

/-- A step that neither exchanges a token nor makes one live that has been given. -/
theorem ExchangesOk.advance (h : ExchangesOk w) (hTokens : TokensOk w) (hHere : w.requests n = some st)
    {store : SessionStore} {history : History} (hGiven : ∀ jti ∈ w.store.given, jti ∈ store.given)
    (hLive : ∀ jti ∈ store.live, jti ∈ w.store.live ∨ jti ∉ w.store.given)
    (hExchanges : history.exchanges = w.history.exchanges)
    (hSpent : ∀ jti, st'.spent? = some jti → st.spent? = some jti ∨ (jti ∈ w.store.live ∧ jti ∉ store.live)) :
    ExchangesOk ⟨store, w.requests.put n st', history⟩ := by
  have hGivenSpent : ∀ n st, w.requests n = some st → ∀ jti, st.spent? = some jti → jti ∈ w.store.given :=
    fun n st hThere jti hJti => hTokens.presented n st hThere jti (Stage.presented_of_spent hJti)
  have hStill : ∀ jti ∈ w.store.given, jti ∉ w.store.live → jti ∉ store.live := fun jti hJti hDead hNow =>
    (hLive jti hNow).elim hDead fun hNot => hNot hJti
  refine ⟨h.distinct.put fun jti hJti n' st'' hNe hThere hSame => ?_, ?_, ?_, ?_⟩
  · rcases hSpent jti hJti with hBefore | ⟨hWas, -⟩
    · exact hNe (h.distinct n' n st'' st jti hThere hHere hSame hBefore)
    · exact (h.spent n' st'' hThere jti hSame).1 hWas
  · rw [hExchanges]
    refine forall_put (fun jti hJti => ?_) fun n' st'' _ hThere jti hJti => ?_
    · rcases hSpent jti hJti with hBefore | ⟨hWas, hNow⟩
      · obtain ⟨hDead, hUnexchanged⟩ := h.spent n st hHere jti hBefore
        exact ⟨hStill jti (hGivenSpent n st hHere jti hBefore) hDead, hUnexchanged⟩
      · exact ⟨hNow, fun hMem => (h.exchanged jti hMem).2 hWas⟩
    · obtain ⟨hDead, hUnexchanged⟩ := h.spent n' st'' hThere jti hJti
      exact ⟨hStill jti (hGivenSpent n' st'' hThere jti hJti) hDead, hUnexchanged⟩
  · rw [hExchanges]
    intro jti hJti
    obtain ⟨hMem, hDead⟩ := h.exchanged jti hJti
    exact ⟨hGiven jti hMem, hStill jti hMem hDead⟩
  · rw [hExchanges]
    exact h.once

theorem ExchangesOk.answer (h : ExchangesOk w) (hTokens : TokensOk w) {old : Option Jti} {new : Jti}
    (hHere : w.requests n = some (.answering old new)) :
    ExchangesOk ⟨{ w.store with given := w.store.given.insert new }, w.requests.put n .done,
      w.history.after n w.store (.answering old new)⟩ := by
  have hMore : ∀ jti ∈ w.store.given, jti ∈ w.store.given.insert new := fun jti hJti => List.mem_insert_of_mem hJti
  cases old with
  | none => exact h.advance hTokens hHere hMore (fun jti hJti => .inl hJti) rfl nofun
  | some old =>
    obtain ⟨hDead, hUnexchanged⟩ := h.spent n _ hHere old rfl
    refine ⟨h.distinct.keep hHere nofun, ?_, fun jti hJti => ?_, List.nodup_cons.mpr ⟨hUnexchanged, h.once⟩⟩
    · refine forall_put nofun fun n' st hNe hThere jti hJti => ?_
      obtain ⟨hDead', hUnexchanged'⟩ := h.spent n' st hThere jti hJti
      refine ⟨hDead', fun hMem => ?_⟩
      rcases List.mem_cons.mp hMem with rfl | hMem
      · exact hNe (h.distinct n' n st _ _ hThere hHere hJti rfl)
      · exact hUnexchanged' hMem
    · rcases List.mem_cons.mp hJti with rfl | hJti
      · exact ⟨hMore _ (hTokens.presented n _ hHere _ rfl), hDead⟩
      · exact ⟨hMore jti (h.exchanged jti hJti).1, (h.exchanged jti hJti).2⟩

theorem History.exchanges_after (history : History) (n : Nat) (s : SessionStore) {st : Stage}
    (h : ∀ old new, st ≠ .answering (some old) new) : (history.after n s st).exchanges = history.exchanges := by
  cases st with
  | drawing old => cases old <;> rfl
  | answering old new =>
    cases old with
    | none => rfl
    | some old => exact absurd rfl (h old new)
  | _ => rfl

theorem ExchangesOk.start (h : ExchangesOk w) (hStart : st.IsStart) :
    ExchangesOk { w with requests := w.requests.put n st } := by
  have hNothing : st.spent? = none := by
    cases st <;> first | rfl | exact hStart.elim
  refine ⟨h.distinct.put fun jti hJti => ?_, forall_put (fun jti hJti => ?_) fun n' st _ hThere => h.spent n' st hThere,
    h.exchanged, h.once⟩
  · cases hNothing.symm.trans hJti
  · cases hNothing.symm.trans hJti

theorem ExchangesOk.step (h : ExchangesOk w) (hTokens : TokensOk w) (hStep : SessionStep Apart w w') :
    ExchangesOk w' := by
  cases hStep with
  | user passwordOk userThere => exact ⟨h.distinct, h.spent, h.exchanged, h.once⟩
  | start n st hFree hStart => exact h.start hStart
  | next n st c next hHere hCommand hGuard =>
    have hQuiet : ∀ st', (∀ jti, st'.spent? = some jti → st.spent? = some jti) →
        ExchangesOk ⟨w.store, w.requests.put n st', w.history⟩ := fun st' hSpent =>
      h.advance hTokens hHere (fun _ hJti => hJti) (fun _ hJti => .inl hJti) rfl fun jti hJti => .inl (hSpent jti hJti)
    have hDone : ExchangesOk ⟨w.store, w.requests.put n .done, w.history⟩ := hQuiet .done nofun
    have hDel : ∀ (jti : Jti) (st' : Stage),
        (∀ j, st'.spent? = some j → st.spent? = some j ∨ (j ∈ w.store.live ∧ j ∉ w.store.live.filter (· ≠ jti))) →
        ExchangesOk ⟨{ w.store with live := w.store.live.filter (· ≠ jti) }, w.requests.put n st', w.history⟩ :=
      fun jti st' hSpent => h.advance hTokens hHere (fun _ hJti => hJti)
        (fun j hj => .inl (List.mem_filter.mp hj).1) rfl hSpent
    cases st with
    | checkingPassword | verifyingRefresh jti | verifyingLogout jti | looking jti | findingUser jti =>
      cases hCommand
      exact stage_ite (P := fun st => ExchangesOk ⟨w.store, w.requests.put n st, w.history⟩)
        (fun _ => hQuiet _ nofun) fun _ => hQuiet _ nofun
    | droppingGone jti | dropping jti =>
      cases hCommand
      exact hDel jti _ nofun
    | rotating jti =>
      cases hCommand
      refine hDel jti _ fun j hj => .inr ?_
      cases hj
      exact ⟨hGuard, fun hMem => by simpa using (List.mem_filter.mp hMem).2⟩
    | listing old | expiring old new =>
      cases hCommand
      exact hQuiet _ fun jti hJti => hJti
    | drawing old =>
      cases hCommand
      exact h.advance hTokens hHere (fun _ hJti => hJti) (fun _ hJti => .inl hJti)
        (History.exchanges_after _ _ _ nofun) fun jti hJti => .inl hJti
    | setting old new =>
      cases hCommand
      refine h.advance hTokens hHere (fun _ hJti => hJti) (fun jti hJti => ?_) rfl fun jti hJti => .inl hJti
      rcases List.mem_insert_iff.mp hJti with rfl | hJti
      · exact .inr (hTokens.new n _ hHere jti rfl).2.1
      · exact .inl hJti
    | adding old new =>
      cases hCommand
      exact h.advance hTokens hHere (fun _ hJti => hJti) (fun _ hJti => .inl hJti) rfl fun jti hJti => .inl hJti
    | answering old new =>
      cases hCommand
      exact h.answer hTokens hHere
    | reading =>
      cases hCommand
      refine h.advance hTokens hHere (fun _ hJti => hJti) (fun _ hJti => .inl hJti) rfl fun jti hJti => ?_
      cases (Stage.sweep_tokens _).2.1.symm.trans hJti
    | sweeping jti rest =>
      cases hCommand
      refine hDel jti _ fun j hj => ?_
      cases (Stage.sweep_tokens _).2.1.symm.trans hj
    | droppingIndex =>
      cases hCommand
      exact h.advance hTokens hHere (fun _ hJti => hJti) (fun _ hJti => .inl hJti) rfl nofun
    | done => cases hCommand

/-! ### What has been revoked stays so -/

structure RevocationOk (w : SessionWorld) : Prop where
  unentered : ∀ n st, w.requests n = some st → ∀ jti, st.unentered? = some jti → jti ∉ w.store.index
  indexed : ∀ jti ∈ w.store.live, jti ∈ w.store.index ∨ ∃ n old, w.requests n = some (.adding old jti)
  pending : ∀ n st, w.requests n = some st → ∀ jtis, st.pending? = some jtis →
    ∀ jti ∈ w.store.index, jti ∈ w.store.live → jti ∈ jtis
  apart : ∀ n st n' st', w.requests n = some st → w.requests n' = some st' → st.Rotates → st'.pending? = none
  dead : ∀ jti ∈ w.store.live, ¬Revoked w.history jti
  sound : ∀ n st, w.requests n = some st → st.Rotates → ∀ jti, st.presented? = some jti → ¬Revoked w.history jti

/-- A token that has not been given is revoked only with the one that it replaces. -/
theorem Revoked.of_parent (hTokens : TokensOk w) {jti : Jti} (hNew : jti ∉ w.store.given) (h : Revoked w.history jti) :
    ∃ old, w.history.parent jti = some old ∧ Revoked w.history old := by
  obtain ⟨first, hFirst, hChain⟩ := h
  cases hChain with
  | refl => exact absurd (hTokens.swept _ hFirst) hNew
  | tail hBefore hLast => exact ⟨_, hLast, first, hFirst, hBefore⟩

/-- The origin of a token that has been drawn before stays as it is. -/
theorem Revoked.of_put (hTokens : TokensOk w) {old : Jti} {jti : Jti} (hLt : jti < w.store.drawn)
    (h : Revoked { w.history with parent := w.history.parent.put w.store.drawn old } jti) : Revoked w.history jti := by
  obtain ⟨first, hFirst, hChain⟩ := h
  refine ⟨first, hFirst, ?_⟩
  induction hChain with
  | refl => exact .refl
  | tail hBefore hLast ih =>
    have hParent := (Table.put_ne (Nat.ne_of_lt hLt)).symm.trans hLast
    exact .tail (ih (hTokens.parent _ _ hParent).2) hParent

/-- A step that makes nothing live, enters nothing in the set and revokes nothing. -/
theorem RevocationOk.advance (h : RevocationOk w) (hHere : w.requests n = some st) {store : SessionStore}
    {history : History} (hLive : ∀ jti ∈ store.live, jti ∈ w.store.live) (hIndex : store.index = w.store.index)
    (hDead : ∀ jti ∈ w.store.live, Revoked history jti → Revoked w.history jti)
    (hSound : ∀ n st, w.requests n = some st → ∀ jti, st.presented? = some jti →
      Revoked history jti → Revoked w.history jti)
    (hAdding : ∀ old new, st ≠ .adding old new) (hEntered : ∀ jti, st'.unentered? = some jti → jti ∉ w.store.index)
    (hPending : ∀ jtis, st'.pending? = some jtis → (∀ jti ∈ w.store.index, jti ∈ store.live → jti ∈ jtis) ∧
      ∀ n st, w.requests n = some st → ¬st.Rotates)
    (hRotates : st'.Rotates → (∀ n st, w.requests n = some st → st.pending? = none) ∧
      ∀ jti, st'.presented? = some jti → ¬Revoked history jti) :
    RevocationOk ⟨store, w.requests.put n st', history⟩ where
  unentered := by
    rw [hIndex]
    exact forall_put hEntered fun n' st'' _ hThere => h.unentered n' st'' hThere
  indexed jti hJti := by
    rw [hIndex]
    refine (h.indexed jti (hLive jti hJti)).imp_right fun ⟨n', old, hThere⟩ => ⟨n', old, ?_⟩
    have hNe : n' ≠ n := by
      rintro rfl
      exact hAdding old jti (Option.some.inj (hHere.symm.trans hThere))
    exact (Table.put_ne hNe).trans hThere
  pending := by
    rw [hIndex]
    exact forall_put (fun jtis hJtis => (hPending jtis hJtis).1) fun n' st'' _ hThere jtis hJtis jti hMem hNow =>
      h.pending n' st'' hThere jtis hJtis jti hMem (hLive jti hNow)
  apart := by
    refine forall_put_pair (fun hRot => ?_) (fun n' st'' hThere hRot => (hRotates hRot).1 n' st'' hThere)
      (fun n' st'' hThere hRot => ?_) h.apart
    · exact Option.eq_none_iff_forall_ne_some.mpr fun jtis hJtis => Stage.not_rotates_of_pending hJtis hRot
    · exact Option.eq_none_iff_forall_ne_some.mpr fun jtis hJtis => (hPending jtis hJtis).2 n' st'' hThere hRot
  dead jti hJti hRevoked := h.dead jti (hLive jti hJti) (hDead jti (hLive jti hJti) hRevoked)
  sound := forall_put (fun hRot => (hRotates hRot).2) fun n' st'' _ hThere hRot jti hJti hRevoked =>
    h.sound n' st'' hThere hRot jti hJti (hSound n' st'' hThere jti hJti hRevoked)

/-- The marker of a new token. -/
theorem RevocationOk.set (h : RevocationOk w) (hTokens : TokensOk w) {old : Option Jti} {new : Jti}
    (hHere : w.requests n = some (.setting old new)) :
    RevocationOk ⟨{ w.store with live := w.store.live.insert new }, w.requests.put n (.adding old new), w.history⟩ := by
  obtain ⟨-, hUngiven, hParent⟩ := hTokens.new n _ hHere new rfl
  have hUnentered := h.unentered n _ hHere new rfl
  have hFresh : ¬Revoked w.history new := fun hRevoked => by
    obtain ⟨old', hOld, hRevoked'⟩ := hRevoked.of_parent hTokens hUngiven
    have hSpent : Stage.spent? (.setting old new) = some old' := hParent.symm.trans hOld
    cases old with
    | none => cases hSpent
    | some o => exact h.sound n _ hHere trivial old' hSpent hRevoked'
  have hRot : (Stage.adding old new).Rotates → (Stage.setting old new).Rotates := by
    cases old <;> exact id
  refine ⟨?_, fun jti hJti => ?_, ?_, ?_, fun jti hJti => ?_, ?_⟩
  · refine forall_put (fun jti hJti => ?_) fun n' st _ hThere => h.unentered n' st hThere
    cases hJti
    exact hUnentered
  · rcases List.mem_insert_iff.mp hJti with rfl | hJti
    · exact .inr ⟨n, old, Table.put_same _ _ _⟩
    · refine (h.indexed jti hJti).imp_right fun ⟨n', old', hThere⟩ => ⟨n', old', (Table.put_ne ?_).trans hThere⟩
      rintro rfl
      cases hHere.symm.trans hThere
  · refine forall_put nofun fun n' st _ hThere jtis hJtis jti hMem hJti => ?_
    rcases List.mem_insert_iff.mp hJti with rfl | hJti
    · exact absurd hMem hUnentered
    · exact h.pending n' st hThere jtis hJtis jti hMem hJti
  · exact forall_put_pair (fun _ => rfl) (fun n' st hThere hNow => h.apart n _ n' st hHere hThere (hRot hNow))
      (fun _ _ _ _ => rfl) h.apart
  · rcases List.mem_insert_iff.mp hJti with rfl | hJti
    · exact hFresh
    · exact h.dead jti hJti
  · exact forall_put (fun hNow jti hJti => h.sound n (.setting old new) hHere (hRot hNow) jti hJti)
      fun n' st _ hThere => h.sound n' st hThere

/-- The entry of a new token in the set. -/
theorem RevocationOk.add (h : RevocationOk w) (hTokens : TokensOk w) {old : Option Jti} {new : Jti}
    (hHere : w.requests n = some (.adding old new)) (hGuard : Apart w (.adding old new)) :
    RevocationOk ⟨{ w.store with index := w.store.index.insert new }, w.requests.put n (.expiring old new), w.history⟩ := by
  have hCalm : ∀ n' st', w.requests n' = some st' → st'.pending? = none := by
    cases old with
    | none => exact hGuard
    | some old => exact fun n' st' hThere => h.apart n _ n' st' hHere hThere trivial
  refine ⟨?_, fun jti hJti => ?_, ?_, fun n₁ st₁ n₂ st₂ h₁ h₂ hRot => ?_, h.dead, ?_⟩
  · refine forall_put nofun fun n' st hNe hThere jti hJti hMem => ?_
    rcases List.mem_insert_iff.mp hMem with rfl | hMem
    · exact hNe (hTokens.distinct n' n st _ _ hThere hHere (Stage.new_of_unentered hJti) rfl)
    · exact h.unentered n' st hThere jti hJti hMem
  · rcases h.indexed jti hJti with hMem | ⟨n', old', hThere⟩
    · exact .inl (List.mem_insert_of_mem hMem)
    · by_cases hSame : n' = n
      · rw [hSame, hHere] at hThere
        cases hThere
        exact .inl List.mem_insert_self
      · exact .inr ⟨n', old', (Table.put_ne hSame).trans hThere⟩
  · exact forall_put nofun fun n' st _ hThere jtis hJtis => by cases (hCalm n' st hThere).symm.trans hJtis
  · rcases Table.put_eq_some.mp h₂ with ⟨-, rfl⟩ | ⟨-, hThere₂⟩
    · rfl
    · exact hCalm n₂ st₂ hThere₂
  · exact forall_put nofun fun n' st _ hThere => h.sound n' st hThere

/-- The end of a revocation of all: whatever is in the set is dead by then. -/
theorem RevocationOk.dropIndex (h : RevocationOk w) (hTokens : TokensOk w) (hHere : w.requests n = some .droppingIndex)
    (hTokens' : TokensOk ⟨{ w.store with index := [] }, w.requests.put n .done,
      w.history.after n w.store .droppingIndex⟩) :
    RevocationOk ⟨{ w.store with index := [] }, w.requests.put n .done, w.history.after n w.store .droppingIndex⟩ := by
  have hCalm : ∀ n' st', w.requests n' = some st' → ¬st'.Rotates := fun n' st' hThere hRot => by
    cases h.apart n' st' n _ hThere hHere hRot
  have hUnentered : ∀ jti ∈ w.store.live, ∃ n' old, n' ≠ n ∧ w.requests n' = some (.adding old jti) := fun jti hJti => by
    rcases h.indexed jti hJti with hMem | ⟨n', old, hThere⟩
    · cases h.pending n _ hHere [] rfl jti hMem hJti
    · refine ⟨n', old, ?_, hThere⟩
      rintro rfl
      cases hHere.symm.trans hThere
  refine ⟨fun _ _ _ _ _ => List.not_mem_nil, fun jti hJti => ?_, fun _ _ _ _ _ _ hMem => absurd hMem List.not_mem_nil,
    fun n₁ st₁ n₂ st₂ h₁ h₂ hRot => ?_, fun jti hJti hRevoked => ?_, ?_⟩
  · obtain ⟨n', old, hNe, hThere⟩ := hUnentered jti hJti
    exact .inr ⟨n', old, (Table.put_ne hNe).trans hThere⟩
  · rcases Table.put_eq_some.mp h₁ with ⟨-, rfl⟩ | ⟨-, hThere₁⟩
    · exact hRot.elim
    · exact absurd hRot (hCalm n₁ st₁ hThere₁)
  · -- What is live and not in the set is the new token of a login.
    obtain ⟨n', old, -, hThere⟩ := hUnentered jti hJti
    obtain ⟨-, hUngiven, hParent⟩ := hTokens.new n' _ hThere jti rfl
    obtain ⟨old', hOld, -⟩ := hRevoked.of_parent hTokens' hUngiven
    have hSpent : old = some old' := hParent.symm.trans hOld
    subst hSpent
    exact hCalm n' _ hThere trivial
  · exact forall_put nofun fun n' st _ hThere hRot => absurd hRot (hCalm n' st hThere)

theorem RevocationOk.start (h : RevocationOk w) (hFree : w.requests n = none) (hStart : st.IsStart) :
    RevocationOk { w with requests := w.requests.put n st } := by
  have hNothing : st.unentered? = none ∧ st.pending? = none ∧ ¬st.Rotates := by
    cases st <;> first | exact ⟨rfl, rfl, id⟩ | exact hStart.elim
  refine ⟨forall_put (fun jti hJti => ?_) fun n' st _ hThere => h.unentered n' st hThere, fun jti hJti => ?_,
    forall_put (fun jtis hJtis => ?_) fun n' st _ hThere => h.pending n' st hThere, ?_,
    h.dead, forall_put (fun hRot => absurd hRot hNothing.2.2) fun n' st _ hThere => h.sound n' st hThere⟩
  · cases hNothing.1.symm.trans hJti
  · refine (h.indexed jti hJti).imp_right fun ⟨n', old, hThere⟩ => ⟨n', old, (Table.put_ne ?_).trans hThere⟩
    rintro rfl
    cases hFree.symm.trans hThere
  · cases hNothing.2.1.symm.trans hJtis
  · exact forall_put_pair (fun _ => hNothing.2.1) (fun _ _ _ hRot => absurd hRot hNothing.2.2)
      (fun _ _ _ _ => hNothing.2.1) h.apart

/-- The number of a new token, which the refresh has obtained from one that is not revoked. -/
theorem RevocationOk.draw (h : RevocationOk w) (hTokens : TokensOk w) {old : Option Jti}
    (hHere : w.requests n = some (.drawing old)) :
    RevocationOk ⟨{ w.store with drawn := w.store.drawn + 1 }, w.requests.put n (.setting old w.store.drawn),
      w.history.after n w.store (.drawing old)⟩ := by
  have hSame : ∀ jti, jti < w.store.drawn → Revoked (w.history.after n w.store (.drawing old)) jti →
      Revoked w.history jti := fun jti hLt hRevoked => by
    cases old with
    | none => exact hRevoked
    | some old => exact hRevoked.of_put hTokens hLt
  refine h.advance hHere (fun _ hJti => hJti) rfl (fun jti hJti => hSame jti (hTokens.live jti hJti))
    (fun n' st' hThere jti hJti => hSame jti (hTokens.given jti (hTokens.presented n' st' hThere jti hJti))) nofun
    (fun jti hJti hMem => ?_) nofun fun hRot => ?_
  · cases hJti
    exact absurd (hTokens.index _ hMem) (Nat.lt_irrefl _)
  · have hRot' : (Stage.drawing old).Rotates := by
      cases old with
      | none => exact hRot.elim
      | some old => trivial
    refine ⟨fun n' st' hThere => h.apart n _ n' st' hHere hThere hRot', fun jti hJti hRevoked => ?_⟩
    have hGiven := hTokens.presented n _ hHere jti hJti
    exact h.sound n _ hHere hRot' jti hJti (hSame jti (hTokens.given jti hGiven) hRevoked)

/-- A stage from which what `sweep` leads to has nothing live in the set but what it has yet to sweep. -/
theorem RevocationOk.sweep (h : RevocationOk w) (hHere : w.requests n = some st)
    (hAdding : ∀ old new, st ≠ .adding old new)
    {live jtis : List Jti} {history : History} (hLive : ∀ jti ∈ live, jti ∈ w.store.live)
    (hParent : history.parent = w.history.parent) (hSwept : history.swept = w.history.swept)
    (hLeft : ∀ jti ∈ w.store.index, jti ∈ live → jti ∈ jtis)
    (hCalm : ∀ n st, w.requests n = some st → ¬st.Rotates) :
    RevocationOk ⟨{ w.store with live := live }, w.requests.put n (Stage.sweep jtis), history⟩ := by
  have hSame : ∀ jti, Revoked history jti → Revoked w.history jti := by
    intro jti hRevoked
    rwa [Revoked, hParent, hSwept] at hRevoked
  refine h.advance hHere hLive rfl (fun jti _ => hSame jti) (fun _ _ _ jti _ => hSame jti) hAdding (fun jti hJti => ?_)
    (fun jtis' hJtis => ?_) fun hRot => ?_
  · cases (Stage.new_of_unentered hJti).symm.trans (Stage.sweep_tokens _).2.2
  · cases (Stage.sweep_pending _).symm.trans hJtis
    exact ⟨hLeft, hCalm⟩
  · exact absurd hRot (Stage.not_rotates_of_pending (Stage.sweep_pending _))

theorem RevocationOk.step (h : RevocationOk w) (hTokens : TokensOk w) (hStep : SessionStep Apart w w') :
    RevocationOk w' := by
  have hTokens' := hTokens.step hStep
  cases hStep with
  | user passwordOk userThere => exact ⟨h.unentered, h.indexed, h.pending, h.apart, h.dead, h.sound⟩
  | start n st hFree hStart => exact h.start hFree hStart
  | next n st c next hHere hCommand hGuard =>
    have hCalm : st.Rotates → ∀ n' st', w.requests n' = some st' → st'.pending? = none := fun hRot n' st' hThere =>
      h.apart n st n' st' hHere hThere hRot
    -- A step that deletes markers at most, to a stage that rotates only where this one does.
    have hLess : ∀ (live : List Jti) (st' : Stage), (∀ jti ∈ live, jti ∈ w.store.live) →
        (∀ old new, st ≠ .adding old new) → st'.unentered? = none → st'.pending? = none →
        (st'.Rotates → st.Rotates ∧ st'.presented? = st.presented?) →
        RevocationOk ⟨{ w.store with live := live }, w.requests.put n st', w.history⟩ :=
      fun live st' hLive hAdding hEntered hPending hRot =>
      h.advance hHere hLive rfl (fun _ _ hR => hR) (fun _ _ _ _ _ hR => hR) hAdding
        (fun jti hJti => by cases hEntered.symm.trans hJti) (fun jtis hJtis => by cases hPending.symm.trans hJtis)
        (fun hNow => ⟨hCalm (hRot hNow).1, (hRot hNow).2 ▸ h.sound n st hHere (hRot hNow).1⟩)
    have hQuiet := fun st' => hLess w.store.live st' fun _ hJti => hJti
    have hDel := fun (jti : Jti) st' => hLess (w.store.live.filter (· ≠ jti)) st' fun _ hJti =>
      (List.mem_filter.mp hJti).1
    cases st with
    | checkingPassword | verifyingRefresh jti | verifyingLogout jti =>
      cases hCommand
      exact stage_ite (P := fun st => RevocationOk ⟨w.store, w.requests.put n st, w.history⟩)
        (fun _ => hQuiet _ nofun rfl rfl nofun) fun _ => hQuiet _ nofun rfl rfl nofun
    | looking jti =>
      cases hCommand
      refine stage_ite (P := fun st => RevocationOk ⟨w.store, w.requests.put n st, w.history⟩)
        (fun hReply => ?_) fun _ => hQuiet _ nofun rfl rfl nofun
      have hLive : jti ∈ w.store.live := of_decide_eq_true hReply
      refine h.advance hHere (fun _ hJti => hJti) rfl (fun _ _ hR => hR) (fun _ _ _ _ _ hR => hR) nofun nofun nofun
        fun _ => ⟨hGuard hLive, fun j hj => ?_⟩
      cases hj
      exact h.dead jti hLive
    | findingUser jti =>
      cases hCommand
      exact stage_ite (P := fun st => RevocationOk ⟨w.store, w.requests.put n st, w.history⟩)
        (fun _ => hQuiet _ nofun rfl rfl fun _ => ⟨trivial, rfl⟩) fun _ => hQuiet _ nofun rfl rfl nofun
    | droppingGone jti | dropping jti =>
      cases hCommand
      exact hDel jti _ nofun rfl rfl nofun
    | rotating jti =>
      cases hCommand
      exact hDel jti _ nofun rfl rfl fun _ => ⟨trivial, rfl⟩
    | listing old =>
      cases hCommand
      refine hQuiet _ nofun rfl rfl fun hRot => ⟨?_, rfl⟩
      cases old with
      | none => exact hRot.elim
      | some old => trivial
    | drawing old =>
      cases hCommand
      exact h.draw hTokens hHere
    | setting old new =>
      cases hCommand
      exact h.set hTokens hHere
    | adding old new =>
      cases hCommand
      exact h.add hTokens hHere hGuard
    | expiring old new =>
      cases hCommand
      exact hQuiet _ nofun rfl rfl nofun
    | answering old new =>
      cases hCommand
      have hSame : ∀ jti, Revoked (w.history.after n w.store (.answering old new)) jti → Revoked w.history jti :=
        fun jti hRevoked => by cases old <;> exact hRevoked
      exact h.advance hHere (fun _ hJti => hJti) rfl (fun jti _ => hSame jti) (fun _ _ _ jti _ => hSame jti) nofun nofun
        nofun nofun
    | reading =>
      cases hCommand
      exact h.sweep hHere nofun (fun _ hJti => hJti) rfl rfl (fun jti hMem _ => hMem) hGuard
    | sweeping jti rest =>
      cases hCommand
      refine h.sweep hHere nofun (fun _ hJti => (List.mem_filter.mp hJti).1) rfl rfl (fun j hMem hLive => ?_)
        fun n' st' hThere hRot => ?_
      · obtain ⟨hWas, hNe⟩ := List.mem_filter.mp hLive
        rcases List.mem_cons.mp (h.pending n _ hHere _ rfl j hMem hWas) with rfl | hRest
        · simp at hNe
        · exact hRest
      · cases h.apart n' st' n _ hThere hHere hRot
    | droppingIndex =>
      cases hCommand
      exact h.dropIndex hTokens hHere hTokens'
    | done => cases hCommand

end

/-- No token has been drawn, and there are no requests. -/
def idle (passwordOk userThere : Bool) : SessionWorld :=
  ⟨⟨[], [], 0, [], passwordOk, userThere⟩, Table.empty, ⟨Table.empty, [], Table.empty, []⟩⟩

/-- What every step in order keeps. -/
structure SessionsOk (w : SessionWorld) : Prop where
  tokens : TokensOk w
  exchanges : ExchangesOk w
  revocation : RevocationOk w

theorem SessionsOk.step {w w' : SessionWorld} (h : SessionsOk w) (hStep : SessionStep Apart w w') : SessionsOk w' where
  tokens := h.tokens.step hStep
  exchanges := h.exchanges.step h.tokens hStep
  revocation := h.revocation.step h.tokens hStep

/-- In every run whose steps are in order, a token is exchanged once, and none that was given before a revocation of
all, nor any obtained from one, is accepted once the revocation has returned. -/
theorem sessions_safe {passwordOk userThere : Bool} {w : SessionWorld}
    (hRun : Run (SessionStep Apart) (idle passwordOk userThere) w) : SessionsSafe w := by
  have hStart : SessionsOk (idle passwordOk userThere) :=
    ⟨⟨nofun, nofun, nofun, nofun, nofun, nofun, nofun, nofun, nofun⟩, ⟨nofun, nofun, nofun, List.nodup_nil⟩,
      ⟨nofun, nofun, nofun, nofun, nofun, nofun⟩⟩
  have hEnd : SessionsOk w := hRun.invariant (fun _ _ hOk hStep => hOk.step hStep) hStart
  obtain ⟨-, hExchanges, hRevocation⟩ := hEnd
  exact ⟨hExchanges.once, fun jti _ hRevoked => decide_eq_false fun hLive => hRevocation.dead jti hLive hRevoked⟩

/-! ### Runs -/

/-- The system after a request has sent its next command. -/
def go (n : Nat) (w : SessionWorld) : SessionWorld :=
  match w.requests n with
  | none => w
  | some st =>
    match st.step with
    | none => w
    | some ⟨c, next⟩ => ⟨(exec c w.store).2, w.requests.put n (next (exec c w.store).1), w.history.after n w.store st⟩

theorem run_go {Guard : SessionWorld → Stage → Prop} {n : Nat} {w : SessionWorld}
    (hGuard : ∀ st, w.requests n = some st → Guard w st) : Run (SessionStep Guard) w (go n w) := by
  unfold go
  split
  · exact .refl
  · rename_i st hHere
    split
    · exact .refl
    · rename_i c next hCommand
      exact .single (.next w n st c next hHere hCommand (hGuard st hHere))

/-- Without a guard the commands may come in any order. -/
theorem run_order (order : List Nat) (w : SessionWorld) :
    Run (SessionStep fun _ _ => True) w (order.foldl (fun w n => go n w) w) := by
  induction order generalizing w with
  | nil => exact .refl
  | cons n order ih => exact (run_go fun _ _ => trivial).trans (ih (go n w))

/-- The system after a request has sent its next `k` commands. -/
def alone (n : Nat) : Nat → SessionWorld → SessionWorld
  | 0, w => w
  | k + 1, w => alone n k (go n w)

/-- The markers that the request deletes on its way are there. -/
def markersThere (n : Nat) : Nat → SessionWorld → Bool
  | 0, _ => true
  | k + 1, w =>
    (match w.requests n with
      | some (.rotating jti) => decide (jti ∈ w.store.live)
      | _ => true) && markersThere n k (go n w)

theorem go_other {n n' : Nat} {w : SessionWorld} (hNe : n' ≠ n) : (go n w).requests n' = w.requests n' := by
  unfold go
  split
  · rfl
  · split
    · rfl
    · exact Table.put_ne hNe

/-- A request that runs alone is in order as long as it deletes markers that are there. -/
theorem run_alone (n k : Nat) {w : SessionWorld}
    (hOthers : ∀ n' st, n' ≠ n → w.requests n' = some st → st = .done) (hMarkers : markersThere n k w = true) :
    Run (SessionStep Apart) w (alone n k w) := by
  induction k generalizing w with
  | zero => exact .refl
  | succ k ih =>
    rw [markersThere, Bool.and_eq_true] at hMarkers
    have hRest := ih (w := go n w) (fun n' st hNe hThere => hOthers n' st hNe ((go_other hNe).symm.trans hThere)) hMarkers.2
    refine (run_go fun st hHere => ?_).trans hRest
    have hSame : ∀ n' st', w.requests n' = some st' → st' = st ∨ st' = .done := fun n' st' hThere => by
      by_cases hNe : n' = n
      · rw [hNe, hHere] at hThere
        exact .inl (Option.some.inj hThere).symm
      · exact .inr (hOthers n' st' hNe hThere)
    have hMarker := hMarkers.1
    rw [hHere] at hMarker
    cases st with
    | rotating jti =>
      show jti ∈ w.store.live
      exact of_decide_eq_true hMarker
    | reading =>
      intro n' st' hThere
      rcases hSame n' st' hThere with rfl | rfl <;> exact id
    | looking jti =>
      intro _ n' st' hThere
      rcases hSame n' st' hThere with rfl | rfl <;> rfl
    | adding old new =>
      cases old with
      | none =>
        intro n' st' hThere
        rcases hSame n' st' hThere with rfl | rfl <;> rfl
      | some old => trivial
    | _ => trivial

theorem alone_other {n n' k : Nat} {w : SessionWorld} (hNe : n' ≠ n) : (alone n k w).requests n' = w.requests n' := by
  induction k generalizing w with
  | zero => rfl
  | succ k ih => exact ih.trans (go_other hNe)

/-- A request that starts where all others are done, and runs to its end. -/
theorem run_request (n k : Nat) {w : SessionWorld} (st : Stage) (hDone : ∀ n' st', w.requests n' = some st' → st' = .done)
    (hFree : w.requests n = none) (hStart : st.IsStart)
    (hMarkers : markersThere n k { w with requests := w.requests.put n st } = true)
    (hEnd : (alone n k { w with requests := w.requests.put n st }).requests n = some .done) :
    Run (SessionStep Apart) w (alone n k { w with requests := w.requests.put n st }) ∧
      ∀ n' st', (alone n k { w with requests := w.requests.put n st }).requests n' = some st' → st' = .done := by
  refine ⟨.head (.start w n st hFree hStart) (run_alone n k (fun n' st' hNe hThere => ?_) hMarkers),
    fun n' st' hThere => ?_⟩
  · exact hDone n' st' ((Table.put_ne hNe).symm.trans hThere)
  · by_cases hSame : n' = n
    · rw [hSame, hEnd] at hThere
      exact (Option.some.inj hThere).symm
    · rw [alone_other hSame] at hThere
      exact hDone n' st' ((Table.put_ne hSame).symm.trans hThere)

/-- A login, a refresh of its token, and a revocation of all. -/
theorem sessions_safe_revoked : ∃ w, Run (SessionStep Apart) (idle true true) w ∧
    w.history.exchanges = [(0, 1)] ∧ w.store.given = [1, 0] ∧ w.history.swept = [1, 0] ∧ SessionsSafe w := by
  obtain ⟨hLogin, hDone₁⟩ := run_request 0 7 (w := idle true true) .checkingPassword nofun rfl trivial rfl rfl
  obtain ⟨hRefresh, hDone₂⟩ := run_request 1 10 (.verifyingRefresh 0) hDone₁ rfl trivial rfl rfl
  obtain ⟨hRevoke, -⟩ := run_request 2 4 .reading hDone₂ rfl trivial rfl rfl
  have hRun := (hLogin.trans hRefresh).trans hRevoke
  exact ⟨_, hRun, rfl, rfl, rfl, sessions_safe hRun⟩

/-- Two refreshes that read the marker of one token both exchange it; and a refresh that has read it before a
revocation of all obtains a token that is accepted afterwards. -/
theorem sessions_unsafe :
    (∃ w, Run (SessionStep fun _ _ => True) (idle true true) w ∧ w.history.exchanges = [(0, 2), (0, 1)] ∧
        ¬SessionsSafe w) ∧
      ∃ w, Run (SessionStep fun _ _ => True) (idle true true) w ∧ Revoked w.history 1 ∧
        (exec (.get 1) w.store).1 = true ∧ ¬SessionsSafe w := by
  have hStarts : ∀ (w : SessionWorld) (n : Nat) (st : Stage), w.requests n = none → st.IsStart →
      Run (SessionStep fun _ _ => True) w { w with requests := w.requests.put n st } := fun w n st hFree hStart =>
    .single (.start w n st hFree hStart)
  have hLogin := hStarts (idle true true) 0 .checkingPassword rfl trivial
  have hFirst := hLogin.trans (hStarts _ 1 (.verifyingRefresh 0) rfl trivial)
  constructor
  · have hSecond := hFirst.trans (hStarts _ 2 (.verifyingRefresh 0) rfl trivial)
    have hRun := hSecond.trans
      (run_order [0, 0, 0, 0, 0, 0, 0, 1, 1, 2, 2, 1, 1, 1, 1, 1, 1, 1, 1, 2, 2, 2, 2, 2, 2, 2, 2] _)
    refine ⟨_, hRun, rfl, fun hSafe => ?_⟩
    have hTwice : [0, 0].Nodup := hSafe.once
    exact absurd hTwice (by decide)
  · have hSecond := hFirst.trans (hStarts _ 2 .reading rfl trivial)
    have hRun := hSecond.trans (run_order [0, 0, 0, 0, 0, 0, 0, 1, 1, 2, 2, 2, 1, 1, 1, 1, 1, 1, 1, 1] _)
    refine ⟨_, hRun, ⟨0, List.mem_cons_self, .single rfl⟩, rfl, fun hSafe => ?_⟩
    have hRefused := hSafe.refused 1 List.mem_cons_self ⟨0, List.mem_cons_self, .single rfl⟩
    cases hRefused

end CyberAccountant.Security.Sessions
