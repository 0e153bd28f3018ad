import CyberAccountant.Accounts.Requests
import CyberAccountant.Library.Isolation

/-! Nobody takes over an account without reading its user's mail or knowing his password: whatever others request
and in whatever order, with an access token of the user or accounts of their own, his password and his address
stay his and nobody else signs in. -/

namespace CyberAccountant.Accounts

open CyberAccountant.Library CyberAccountant.Ledger CyberAccountant.Api CyberAccountant.Api.Validation
  CyberAccountant.Security.Auth CyberAccountant.Security.Base64 CyberAccountant.Security.Tokens
open CyberAccountant.Library.Program (orReply)
open CyberAccountant.Hr (text)
open CyberAccountant.Tenancy (sameEmail isAdmin)
open AccountController (newPassword)

/-! ### Runs -/

inductive Sender where
  | adversary
  | other
  deriving DecidableEq

/-- A request arrives, or one under way goes on. -/
inductive AccountEvent where
  | request (n : Nat) (sender : Sender) (p : Option AuthPrincipal) (r : AccountRequest)
  | next (n : Nat) (m : Moment)

def AccountEvent.onTables (cfg : AccountConfig) :
    AccountEvent → ServiceEvent Unit Moment AccountCommand AccountCommand.Reply (Sender × AccountReply)
  | request n sender p r => .arrive () n (Prod.mk sender <$> handle cfg p r)
  | next n m => .next () n m

/-- The service after these events. -/
def serveAccounts (cfg : AccountConfig) (s : AccountState) (events : List AccountEvent) :
    Service Unit AccountCommand AccountCommand.Reply AccountState (Sender × AccountReply) :=
  (Service.idle s).run (AccountState.exec cfg) (events.map (AccountEvent.onTables cfg))

/-! ### What belongs to the user -/

/-- A user, the addresses at which only he reads, and the hashes that none but he can match. -/
structure Victim where
  id : Uuid
  ours : String → Prop
  secret : String → Prop

section

variable (cfg : AccountConfig) (v : Victim)

def Is (id : String) : Prop := readUuid id = some v.id

/-- A password that does not match. -/
def Guess (password : String) : Prop := ∀ hash, v.secret hash → verifyPassword cfg.passwords password hash = false

/-- A password whose hashes are among the user's. -/
def Chosen (password : String) : Prop := ∀ salt, v.secret (cfg.passwords.hash password salt)

/-- Row, job and message are the user's, if they are about him. -/
def OwnRow (u : UserRow) : Prop := Is v u.id → v.ours u.email ∧ ∀ hash, u.passwordHash = some hash → v.secret hash

def OwnJob (job : EmailJob) : Prop := job.kind = .changeEmail → Is v job.userId → v.ours job.newEmail

def OwnMail (m : Mail) : Prop :=
  ∀ sub, stringField m.claims "sub" = some sub → Is v sub →
    v.ours m.recipient ∧ ∀ address, stringField m.claims "new_email" = some address → v.ours address

structure Guarded (s : AccountState) : Prop where
  there : ∃ u ∈ s.users, Is v u.id
  users : ∀ u ∈ s.users, OwnRow v u
  jobs : ∀ job ∈ s.jobs, OwnJob v job
  mail : ∀ m ∈ s.mail, OwnMail v m

/-- No message is taken back. -/
def Grows (s s' : AccountState) : Prop := ∀ m ∈ s.mail, m ∈ s'.mail

/-- The calls that leave the user what is his. -/
def Allowed : AccountCommand → Prop
  | .updatePasswordHash id hash | .redeemInvite id hash => Is v id → v.secret hash
  | .changeEmail id address => Is v id → v.ours address
  | .adminUpdate id address _ => Is v id → ∀ a, address = some a → v.ours a
  | .remove id => ¬Is v id
  | .submit job => OwnJob v job
  | .send m => OwnMail v m
  | _ => True

variable {v}

/-! ### One call -/

variable {s s' : AccountState}

theorem Guarded.updateUser (hs : Guarded v s) {id : String} {admits : UserRow → Bool} {f : UserRow → UserRow}
    (hId : ∀ u, (f u).id = u.id) (hOwn : Is v id → ∀ u, OwnRow v u → OwnRow v (f u)) :
    Guarded v (s.updateUser id admits f).2 := by
  unfold AccountState.updateUser
  split
  · exact hs
  · rename_i k hK
    split
    · exact hs
    · split
      · exact hs
      · refine ⟨?_, fun u' hu' => ?_, hs.jobs, hs.mail⟩
        · obtain ⟨u, hu, hIs⟩ := hs.there
          refine ⟨if hasId k u && admits u then f u else u, List.mem_map.mpr ⟨u, hu, rfl⟩, ?_⟩
          unfold Is at hIs ⊢
          split
          · rw [hId, hIs]
          · exact hIs
        · obtain ⟨u, hu, rfl⟩ := List.mem_map.mp hu'
          split
          · rename_i hHere
            by_cases hVictim : Is v u.id
            · refine hOwn ?_ u (hs.users u hu)
              have hSame : readUuid u.id = some k := by
                simp only [hasId, Bool.and_eq_true, decide_eq_true_eq] at hHere
                exact hHere.1
              rw [Is, hK, ← hSame]
              exact hVictim
            · intro hNow
              rw [hId] at hNow
              exact absurd hNow hVictim
          · exact hs.users u hu

theorem updateUser_mail {id : String} {admits : UserRow → Bool} {f : UserRow → UserRow} :
    (s.updateUser id admits f).2.mail = s.mail := by
  unfold AccountState.updateUser
  repeat' split
  all_goals rfl

/-- A new user is another one, as long as the user is there. -/
theorem Guarded.create (hs : Guarded v s) (row : UserRow) :
    Guarded v (s.create row).2 ∧ ∀ u, (s.create row).1 = .ok u → OwnRow v u := by
  unfold AccountState.create
  split
  · exact ⟨hs, fun u hOk => by cases hOk⟩
  · rename_i hNone
    have hOther : ¬Is v row.id := by
      intro hIs
      obtain ⟨u, hu, hThere⟩ := hs.there
      apply hNone
      exact List.any_eq_true.mpr ⟨u, hu, decide_eq_true (.inl (hThere.trans hIs.symm))⟩
    have hOwn : OwnRow v row := fun hIs => absurd hIs hOther
    refine ⟨⟨?_, fun u hu => ?_, hs.jobs, hs.mail⟩, fun u hOk => ?_⟩
    · obtain ⟨u, hu, hIs⟩ := hs.there
      exact ⟨u, List.mem_append_left _ hu, hIs⟩
    · rcases List.mem_append.mp hu with hOld | hNew
      · exact hs.users u hOld
      · rw [List.mem_singleton.mp hNew]
        exact hOwn
    · cases hOk
      exact hOwn

theorem create_mail {row : UserRow} : (s.create row).2.mail = s.mail := by
  unfold AccountState.create
  split <;> rfl

theorem Guarded.remove (hs : Guarded v s) {id : String} (hOther : ¬Is v id) : Guarded v (s.remove id).2 := by
  unfold AccountState.remove
  split
  · exact hs
  · rename_i k hK
    split
    · refine ⟨?_, fun u hu => hs.users u (List.mem_filter.mp hu).1, hs.jobs, hs.mail⟩
      obtain ⟨u, hu, hIs⟩ := hs.there
      refine ⟨u, List.mem_filter.mpr ⟨hu, ?_⟩, hIs⟩
      have hNe : readUuid u.id ≠ some k := by
        intro hSame
        apply hOther
        rw [Is, hK, ← hSame]
        exact hIs
      simpa [hasId] using hNe
    · exact hs

theorem remove_mail {id : String} : (s.remove id).2.mail = s.mail := by
  unfold AccountState.remove
  repeat' split
  all_goals rfl

theorem apply_grows (m : Moment) (c : AccountCommand) (s : AccountState) : Grows s (s.apply cfg m c).2 := by
  intro message hMessage
  cases c with
  | send m' => exact List.mem_append_left _ hMessage
  | create | updatePasswordHash | markConfirmed | redeemInvite | changeEmail | adminUpdate | remove =>
    simpa only [AccountState.apply, updateUser_mail, create_mail, remove_mail] using hMessage
  | consumeOnce token =>
    simp only [AccountState.apply]
    split <;> exact hMessage
  | findRole id => cases id <;> exact hMessage
  | nowEpochSeconds | hashPassword | find | findByEmail | revokeAll | recordSession | submit | takeJob => exact hMessage

theorem exec_grows (m : Moment) (c : AccountCommand) (s : AccountState) : Grows s (s.exec cfg m c).2 := by
  unfold AccountState.exec
  cases m.fate with
  | failed => exact fun _ h => h
  | answered | lost => exact apply_grows cfg m c s

theorem apply_guarded (m : Moment) {c : AccountCommand} (hAllowed : Allowed v c) (hs : Guarded v s) :
    Guarded v (s.apply cfg m c).2 := by
  cases c with
  | create email hash role confirmed => exact (hs.create _).1
  | updatePasswordHash id hash =>
    exact hs.updateUser (fun _ => rfl) fun hId u hu hIs => ⟨(hu hIs).1, fun h hEq => by cases hEq; exact hAllowed hId⟩
  | markConfirmed id => exact hs.updateUser (fun _ => rfl) fun _ u hu hIs => hu hIs
  | redeemInvite id hash =>
    exact hs.updateUser (fun _ => rfl) fun hId u hu hIs => ⟨(hu hIs).1, fun h hEq => by cases hEq; exact hAllowed hId⟩
  | changeEmail id address =>
    exact hs.updateUser (fun _ => rfl) fun hId u hu hIs => ⟨hAllowed hId, (hu hIs).2⟩
  | adminUpdate id address role =>
    refine hs.updateUser (fun _ => rfl) fun hId u hu hIs => ⟨?_, (hu hIs).2⟩
    cases address with
    | none => exact (hu hIs).1
    | some a => exact hAllowed hId a rfl
  | remove id => exact hs.remove hAllowed
  | consumeOnce token =>
    simp only [AccountState.apply]
    split
    · exact hs
    · exact ⟨hs.there, hs.users, hs.jobs, hs.mail⟩
  | submit job =>
    refine ⟨hs.there, hs.users, fun j hj => ?_, hs.mail⟩
    rcases List.mem_append.mp hj with hOld | hNew
    · exact hs.jobs j hOld
    · rw [List.mem_singleton.mp hNew]
      exact hAllowed
  | send m' =>
    refine ⟨hs.there, hs.users, hs.jobs, fun m hm => ?_⟩
    rcases List.mem_append.mp hm with hOld | hNew
    · exact hs.mail m hOld
    · rw [List.mem_singleton.mp hNew]
      exact hAllowed
  | findRole id => cases id <;> exact hs
  | nowEpochSeconds | hashPassword | find | findByEmail | revokeAll | recordSession | takeJob => exact hs

theorem exec_guarded (m : Moment) {c : AccountCommand} (hAllowed : Allowed v c) (hs : Guarded v s) :
    Guarded v (s.exec cfg m c).2 := by
  unfold AccountState.exec
  cases m.fate with
  | failed => exact hs
  | answered | lost => exact apply_guarded cfg m hAllowed hs

theorem exec_some {m : Moment} {c : AccountCommand} {result : c.Result} (h : (s.exec cfg m c).1 = some result) :
    (s.apply cfg m c).1 = some result := by
  unfold AccountState.exec at h
  cases hFate : m.fate <;> rw [hFate] at h
  · exact h
  · cases h
  · cases h

theorem find_own (hs : Guarded v s) {m : Moment} {id : String} {u : UserRow}
    (h : (s.exec cfg m (.find id)).1 = some (some u)) : OwnRow v u ∧ (Is v u.id → Is v id) := by
  have hFound : ((readUuid id).map fun k => s.users.find? (hasId k)) = some (some u) := exec_some cfg h
  obtain ⟨k, hK, hUser⟩ := Option.map_eq_some_iff.mp hFound
  refine ⟨hs.users u (List.mem_of_find?_eq_some hUser), fun hIs => ?_⟩
  have hSame : readUuid u.id = some k := by simpa [hasId] using List.find?_some hUser
  rw [Is, hK, ← hSame]
  exact hIs

theorem findByEmail_own (hs : Guarded v s) {m : Moment} {address : String} {u : UserRow}
    (h : (s.exec cfg m (.findByEmail address)).1 = some (some u)) : OwnRow v u := by
  have hFound : some (s.users.find? fun u => sameEmail u.email address) = some (some u) := exec_some cfg h
  exact hs.users u (List.mem_of_find?_eq_some (Option.some.inj hFound))

/-! ### One program -/

variable (v) in
/-- The program leaves the user what is his, whatever others do meanwhile, and ends as `Q` says. -/
def Keeps {α : Type} (Q : α → Prop) (program : AccountM α) : Prop :=
  ∀ s, Ensures (AccountState.exec cfg) (Guarded v) Grows Q program s

variable {cfg} {α β : Type} {Q : α → Prop}

theorem keeps_done {a : α} (h : Q a) : Keeps cfg v Q (pure a) := fun _ => h

theorem keeps_call {c : AccountCommand} {rest : Option c.Result → AccountM α} (hAllowed : Allowed v c)
    (hRest : ∀ m s, Guarded v s → Keeps cfg v Q (rest (s.exec cfg m c).1)) : Keeps cfg v Q (call c >>= rest) := by
  intro _ m s _ hs
  exact ⟨exec_guarded cfg m hAllowed hs, exec_grows cfg m c s, hRest m s hs _⟩

theorem keeps_bind {p : AccountM β} {f : β → AccountM α} (h : Keeps cfg v (fun _ => True) p)
    (hRest : ∀ b, Keeps cfg v Q (f b)) : Keeps cfg v Q (p >>= f) :=
  fun s => Ensures.bind (h s) fun b s _ => hRest b s

variable (v) in
/-- The reply signs the adversary in as somebody else. -/
def Harmless (sender : Sender) (reply : AccountReply) : Prop :=
  sender = .adversary → ∀ u, reply = .session u → ¬Is v u.id

/-- A reply that signs nobody in. -/
def Plain (reply : AccountReply) : Prop := ∀ u, reply ≠ .session u

variable {sender : Sender} {p : Option AuthPrincipal} {token : Bytes}

theorem Plain.harmless {reply : AccountReply} (h : Plain reply) : Harmless v sender reply :=
  fun _ u hSession => absurd hSession (h u)

theorem keeps_plain {reply : AccountReply} (h : Plain reply) : Keeps cfg v (Harmless v sender) (pure reply) :=
  keeps_done h.harmless

theorem keeps_orReply {x : Except AccountReply β} {next : β → AccountM AccountReply} (hErrs : Errs Plain x)
    (hNext : ∀ b, x = .ok b → Keeps cfg v (Harmless v sender) (next b)) :
    Keeps cfg v (Harmless v sender) (orReply x next) := by
  cases x with
  | error reply => exact keeps_plain (hErrs reply rfl)
  | ok b => exact hNext b rfl

theorem keeps_attempt {c : AccountCommand} {otherwise : AccountReply} {next : c.Result → AccountM AccountReply}
    (hAllowed : Allowed v c) (hPlain : Plain otherwise)
    (hNext : ∀ m s result, Guarded v s → (s.exec cfg m c).1 = some result →
      Keeps cfg v (Harmless v sender) (next result)) :
    Keeps cfg v (Harmless v sender) (attempt c otherwise next) := by
  refine keeps_call hAllowed fun m s hs => ?_
  cases hReply : (s.exec cfg m c).1 with
  | none => exact keeps_plain hPlain
  | some result => exact hNext m s result hs hReply

theorem errs_fault {ρ : Type} {x : Except WriteFault ρ} : Errs Plain (x.mapError fault) := by
  refine errs_mapError fun e => ?_
  cases e <;> exact fun u h => by cases h

theorem keeps_requireAdmin {handler : AccountM AccountReply} (hMode : cfg.mode ≠ .none)
    (h : ∀ admin, p = some admin → isAdmin admin = true → Keeps cfg v (Harmless v sender) handler) :
    Keeps cfg v (Harmless v sender) (requireAdmin cfg p handler) := by
  unfold requireAdmin
  split
  · rename_i hPasses
    obtain ⟨admin, rfl, hAdmin⟩ := Option.any_eq_true _ _ |>.mp (hPasses.resolve_left hMode)
    exact h admin rfl hAdmin
  · exact keeps_plain fun u h => by cases h

/-! ### Mail -/

variable (v) in
/-- The message goes to the user, if it is about him. -/
def Sendable (kind : MailKind) (user : UserRow) (newEmail : String) : Prop :=
  Is v user.id → v.ours (if kind = .changeEmail then newEmail else user.email)

theorem payload_sub {id newEmail : String} {kind : MailKind} {now : Int} :
    stringField (payload id (AccountEmails.purpose kind) (AccountEmails.ttl kind) (AccountEmails.extra kind newEmail) now)
      "sub" = some id := by
  cases kind with
  | changeEmail =>
    simp only [stringField, payload, AccountEmails.extra, if_true, Json.members, List.foldl_cons, List.foldl_nil]
    rw [Json.member_setMember_other (by decide)]
    rfl
  | confirm | resetPassword | invite => rfl

theorem payload_newEmail {id newEmail address : String} {kind : MailKind} {now : Int}
    (h : stringField (payload id (AccountEmails.purpose kind) (AccountEmails.ttl kind)
      (AccountEmails.extra kind newEmail) now) "new_email" = some address) : kind = .changeEmail ∧ address = newEmail := by
  cases kind with
  | changeEmail =>
    simp only [stringField, payload, AccountEmails.extra, if_true, Json.members, List.foldl_cons, List.foldl_nil,
      Json.member_setMember_same, Option.some.injEq] at h
    exact ⟨rfl, h.symm⟩
  | confirm | resetPassword | invite => cases h

theorem keeps_deliverNow {kind : MailKind} {user : UserRow} {newEmail : String} (h : Sendable v kind user newEmail) :
    Keeps cfg v (fun _ => True) (AccountEmails.deliverNow cfg kind user newEmail) := by
  unfold AccountEmails.deliverNow
  split
  · exact keeps_done trivial
  · refine keeps_call (c := .nowEpochSeconds) trivial fun m s _ => ?_
    cases (s.exec cfg m .nowEpochSeconds).1 with
    | none => exact keeps_done trivial
    | some now =>
      refine keeps_call (c := .send _) (fun sub hSub hIs => ?_) fun _ _ _ => keeps_done trivial
      cases payload_sub.symm.trans hSub
      refine ⟨h hIs, fun address hAddress => ?_⟩
      obtain ⟨hKind, rfl⟩ := payload_newEmail hAddress
      simpa [hKind] using h hIs

theorem keeps_dispatch {kind : MailKind} {user : UserRow} {newEmail : String} (h : Sendable v kind user newEmail) :
    Keeps cfg v (fun _ => True) (AccountEmails.dispatch cfg kind user newEmail) := by
  unfold AccountEmails.dispatch
  split
  · refine keeps_call (c := .submit ⟨kind, user.id, newEmail⟩) (fun hKind hIs => ?_) fun m s _ => ?_
    · simpa [show kind = .changeEmail from hKind] using h hIs
    · cases (s.exec cfg m (.submit ⟨kind, user.id, newEmail⟩)).1 with
      | none => exact keeps_deliverNow h
      | some _ => exact keeps_done trivial
  · exact keeps_deliverNow h

theorem OwnRow.sendable {u : UserRow} (h : OwnRow v u) {kind : MailKind} (hKind : kind ≠ .changeEmail)
    (newEmail : String) : Sendable v kind u newEmail := by
  intro hIs
  rw [if_neg hKind]
  exact (h hIs).1

theorem keeps_processJob (k : Nat) : Keeps cfg v (Harmless v sender) (AccountEmails.processJob cfg k) := by
  have hDone : Keeps cfg v (Harmless v sender) (pure .worked) := keeps_plain fun u h => by cases h
  refine keeps_call (c := .takeJob k) trivial fun m s hs => ?_
  match hJob : (s.exec cfg m (.takeJob k)).1 with
  | none | some none => exact hDone
  | some (some job) =>
    have hThere : some s.jobs[k]? = some (some job) := exec_some cfg hJob
    have hOwn : OwnJob v job := hs.jobs job (List.mem_of_getElem? (Option.some.inj hThere))
    refine keeps_call (c := .find job.userId) trivial fun m s hs => ?_
    match hUser : (s.exec cfg m (.find job.userId)).1 with
    | none | some none => exact hDone
    | some (some user) =>
      obtain ⟨hRow, hSame⟩ := find_own cfg hs hUser
      refine keeps_bind (keeps_deliverNow fun hIs => ?_) fun _ => hDone
      split
      · rename_i hKind
        exact hOwn hKind (hSame hIs)
      · exact (hRow hIs).1

/-! ### Links -/

variable (cfg v) in
/-- The link, if it is good at all, is another user's; or it is not the adversary who has it, and the address that
it may name is the user's. -/
def LinkOk (sender : Sender) (token : Bytes) : Prop :=
  ∀ kind now vr, verify cfg.lib cfg.jwtSecret token (AccountEmails.purpose kind) now = .ok vr → Is v vr.sub →
    sender = .other ∧ ∀ address, stringField vr.extra "new_email" = some address → v.ours address

theorem keeps_withLink {purpose : Purpose} {message : String} {next : VerifyResult → AccountM AccountReply}
    (hNext : ∀ now vr, verify cfg.lib cfg.jwtSecret token purpose now = .ok vr →
      Keeps cfg v (Harmless v sender) (next vr)) :
    Keeps cfg v (Harmless v sender) (AccountController.withLink cfg token purpose message next) := by
  refine keeps_attempt (c := .nowEpochSeconds) trivial (fun u h => by cases h) fun m s now _ _ => ?_
  cases hVerify : verify cfg.lib cfg.jwtSecret token purpose now with
  | error e => exact keeps_plain fun u h => by cases h
  | ok vr => exact hNext now vr hVerify

theorem keeps_consumed {message : String} {next : AccountM AccountReply} (h : Keeps cfg v (Harmless v sender) next) :
    Keeps cfg v (Harmless v sender) (AccountController.consumed token message next) := by
  refine keeps_attempt (c := .consumeOnce token) trivial (fun u h => by cases h) fun m s first _ _ => ?_
  cases first with
  | true => exact h
  | false => exact keeps_plain fun u h => by cases h

theorem keeps_afterWrite {id message : String} (written : Except WriteFault Unit) :
    Keeps cfg v (Harmless v sender) (AccountController.afterWrite id message written) := by
  cases written with
  | error e => exact keeps_plain fun u h => by cases e <;> cases h
  | ok _ => exact keeps_call (c := .revokeAll id) trivial fun _ _ _ => keeps_plain fun u h => by cases h

theorem keeps_written {written : Except WriteFault α} {next : α → AccountM AccountReply}
    (h : ∀ a, written = .ok a → Keeps cfg v (Harmless v sender) (next a)) :
    Keeps cfg v (Harmless v sender) (orReply (written.mapError fault) next) :=
  keeps_orReply errs_fault fun a hOk => h a (mapError_eq_ok.mp hOk)

/-! ### What a request may be -/

variable (cfg v) in
/-- The adversary does not know the user's password, and is no administrator; the user chooses his passwords for
himself and moves to addresses of his own, and no administrator deletes him or gives him another's address. -/
def Behaves (sender : Sender) (p : Option AuthPrincipal) : AccountRequest → Prop
  | .login body => sender = .adversary → ∀ b password, body = some b → stringField b "password" = some password →
      Guess cfg v password
  | .applyReset token body | .joinFromInvite token body => sender = .other →
      (∃ kind now vr, verify cfg.lib cfg.jwtSecret token (AccountEmails.purpose kind) now = .ok vr ∧ Is v vr.sub) →
      ∀ b, body = some b → Chosen cfg v (text b "new_password")
  | .requestChangeEmail body => ∀ a b, p = some a → body = some b → Is v a.subject →
      (sender = .adversary → ∀ password, stringField b "password" = some password → Guess cfg v password) ∧
      (sender = .other → v.ours (text b "new_email"))
  | .changePassword body => ∀ a b, p = some a → body = some b → Is v a.subject →
      (sender = .adversary → ∀ password, stringField b "old_password" = some password → Guess cfg v password) ∧
      (sender = .other → Chosen cfg v (text b "new_password"))
  | .updateUser id body => sender = .other → Is v id → ∀ b a, body = some b → stringField b "email" = some a → v.ours a
  | .deleteUser id => sender = .other → ¬Is v id
  | _ => True

/-- The link that a request carries. -/
def AccountRequest.token? : AccountRequest → Option Bytes
  | .confirm token | .applyReset token _ | .applyChangeEmail token | .joinFromInvite token _ => some token
  | _ => none

theorem hash_chosen {password hash : String} {m : Moment} (h : Chosen cfg v password)
    (hHash : (s.exec cfg m (.hashPassword password)).1 = some hash) : v.secret hash := by
  have hSalt : some (cfg.passwords.hash password m.salt) = some hash := exec_some cfg hHash
  exact Option.some.inj hSalt ▸ h m.salt

theorem create_own {address : String} {hash : Option String} {role : Nat} {confirmed : Bool} {m : Moment} {u : UserRow}
    (hs : Guarded v s) (h : (s.exec cfg m (.create address hash role confirmed)).1 = some (.ok u)) : OwnRow v u := by
  have hMade : some (s.create ⟨m.id, address, hash, confirmed, role⟩).1 = some (.ok u) := exec_some cfg h
  exact (hs.create _).2 u (Option.some.inj hMade)

/-- A body that is read and checked. -/
theorem errs_body {body : Option Json} {faults : Json → List FieldError} {read : Json → α} :
    Errs Plain (do
      let body ← parseBody body
      check (faults body)
      return read body) :=
  .bind (errs_orFail fun u h => by cases h) fun b => .bind (errs_ensure fun u h => by cases h) fun _ => errs_ok

theorem errs_newPassword {body : Option Json} : Errs Plain (newPassword body) := errs_body

theorem newPassword_ok {body : Option Json} {password : String} (h : newPassword body = .ok password) :
    ∃ b, body = some b ∧ password = text b "new_password" := by
  simp only [newPassword, parseBody, check, bind_eq_ok, orFail_eq_ok, ensure_eq_ok, exists_const, pure_eq_ok] at h
  obtain ⟨b, hBody, -, hText⟩ := h
  exact ⟨b, hBody, hText.symm⟩

theorem errs_ownBody {body : Option Json} {faults : Json → List FieldError} :
    Errs Plain (do
      let p ← principalOf p
      let body ← parseBody body
      check (faults body)
      return (p, body)) :=
  .bind (errs_orFail fun u h => by cases h) fun _ => errs_body

theorem ownBody_ok {body : Option Json} {faults : Json → List FieldError} {given : AuthPrincipal × Json}
    (h : (do
      let p ← principalOf p
      let body ← parseBody body
      check (faults body)
      return (p, body)) = .ok given) : ∃ caller b, p = some caller ∧ body = some b ∧ given = (caller, b) := by
  simp only [principalOf, parseBody, check, bind_eq_ok, orFail_eq_ok, ensure_eq_ok, exists_const, pure_eq_ok] at h
  obtain ⟨caller, hCaller, b, hBody, -, hGiven⟩ := h
  exact ⟨caller, b, hCaller, hBody, hGiven.symm⟩

theorem errs_ownPassword {user : Option UserRow} {password : Option String} {message : String} :
    Errs Plain (AccountController.ownPassword cfg user password message) := by
  unfold AccountController.ownPassword
  refine .bind (errs_orFail fun u h => by cases h) fun u => .bind (errs_orFail fun u h => by cases h) fun hash => ?_
  exact .bind (errs_orFail fun u h => by cases h) fun pw => .bind (errs_ensure fun u h => by cases h) fun _ => errs_ok

/-- Whoever gives the password of the user is not the adversary. -/
theorem ownPassword_ok {user : Option UserRow} {password : Option String} {message : String} {u : UserRow}
    (h : AccountController.ownPassword cfg user password message = .ok u) (hOwn : OwnRow v u) (hIs : Is v u.id)
    (hGuess : ∀ pw, password = some pw → sender = .adversary → Guess cfg v pw) : sender = .other := by
  simp only [AccountController.ownPassword, bind_eq_ok, orFail_eq_ok, ensure_eq_ok, exists_const, pure_eq_ok] at h
  obtain ⟨row, -, hash, hHash, pw, hPassword, hVerify, rfl⟩ := h
  cases hSender : sender with
  | other => rfl
  | adversary =>
    have hFalse := hGuess pw hPassword hSender hash ((hOwn hIs).2 hash hHash)
    rw [hFalse] at hVerify
    cases hVerify

theorem ownPassword_user {user : Option UserRow} {password : Option String} {message : String} {u : UserRow}
    (h : AccountController.ownPassword cfg user password message = .ok u) : user = some u := by
  simp only [AccountController.ownPassword, bind_eq_ok, orFail_eq_ok, ensure_eq_ok, exists_const, pure_eq_ok] at h
  obtain ⟨row, hUser, _, -, _, -, -, rfl⟩ := h
  exact hUser

/-! ### One request -/

theorem keeps_registerUser (body : Option Json) :
    Keeps cfg v (Harmless v sender) (AuthController.registerUser cfg body) := by
  unfold AuthController.registerUser
  refine keeps_orReply errs_body fun b _ => ?_
  refine keeps_attempt (c := .findRole none) trivial (fun u h => by cases h) fun _ _ role _ _ => ?_
  refine keeps_orReply (errs_orFail fun u h => by cases h) fun role _ => ?_
  refine keeps_attempt (c := .hashPassword _) trivial (fun u h => by cases h) fun _ _ hash _ _ => ?_
  refine keeps_attempt (c := .create _ _ _ _) trivial (fun u h => by cases h) fun m s made hs hMade => ?_
  refine keeps_written fun user hOk => ?_
  have hOwn : OwnRow v user := create_own hs (hOk ▸ hMade)
  exact keeps_bind (keeps_dispatch (hOwn.sendable (by decide) _)) fun _ => keeps_plain fun u h => by cases h

theorem keeps_login {body : Option Json}
    (h : sender = .adversary → ∀ b password, body = some b → stringField b "password" = some password →
      Guess cfg v password) : Keeps cfg v (Harmless v sender) (AuthController.login cfg body) := by
  unfold AuthController.login
  refine keeps_orReply ?_ fun given hGiven => ?_
  · refine .bind (errs_orFail fun u h => by cases h) fun b => .bind (errs_ensure fun u h => by cases h) fun _ => ?_
    exact .bind (errs_orFail fun u h => by cases h) fun _ => .bind (errs_orFail fun u h => by cases h) fun _ => errs_ok
  simp only [parseBody, check, bind_eq_ok, orFail_eq_ok, ensure_eq_ok, exists_const, pure_eq_ok] at hGiven
  obtain ⟨b, hBody, -, address, -, password, hPassword, rfl⟩ := hGiven
  refine keeps_attempt (c := .findByEmail _) trivial (fun u h => by cases h) fun m s user hs hUser => ?_
  refine keeps_orReply (errs_orFail fun u h => by cases h) fun u hCredentials => ?_
  have hThere := Option.filter_eq_some_iff.mp (orFail_eq_ok.mp hCredentials)
  obtain ⟨rfl, hMatch⟩ := hThere
  have hOwn := findByEmail_own cfg hs hUser
  split
  · exact keeps_plain fun u h => by cases h
  · refine keeps_attempt (c := .recordSession _) trivial (fun u h => by cases h) fun _ _ _ _ _ => ?_
    refine keeps_done fun hAdversary u' hSession hIs => ?_
    cases hSession
    obtain ⟨hash, hHash, hVerify⟩ := Option.any_eq_true _ _ |>.mp hMatch
    have hFalse := h hAdversary b password hBody hPassword hash ((hOwn hIs).2 hash hHash)
    rw [hFalse] at hVerify
    cases hVerify

theorem keeps_resendConfirm : Keeps cfg v (Harmless v sender) (AccountController.resendConfirm cfg p) := by
  unfold AccountController.resendConfirm
  refine keeps_orReply (errs_orFail fun u h => by cases h) fun caller _ => ?_
  refine keeps_attempt (c := .find _) trivial (fun u h => by cases h) fun m s user hs hUser => ?_
  refine keeps_orReply (errs_orFail fun u h => by cases h) fun u hThere => ?_
  obtain rfl := orFail_eq_ok.mp hThere
  split
  · exact keeps_plain fun u h => by cases h
  · exact keeps_bind (keeps_dispatch ((find_own cfg hs hUser).1.sendable (by decide) _)) fun _ =>
      keeps_plain fun u h => by cases h

theorem keeps_confirm : Keeps cfg v (Harmless v sender) (AccountController.confirm cfg token) := by
  refine keeps_withLink fun now vr _ => keeps_consumed ?_
  refine keeps_attempt (c := .markConfirmed vr.sub) trivial (fun u h => by cases h) fun m s found _ _ => ?_
  cases found <;> exact keeps_plain fun u h => by cases h

theorem keeps_requestReset (body : Option Json) :
    Keeps cfg v (Harmless v sender) (AccountController.requestReset cfg body) := by
  have hDone : Keeps cfg v (Harmless v sender) (pure AccountController.acknowledged) :=
    keeps_plain fun u h => by cases h
  unfold AccountController.requestReset
  refine keeps_orReply errs_body fun address _ => ?_
  refine keeps_call (c := .findByEmail address) trivial fun m s hs => ?_
  match hUser : (s.exec cfg m (.findByEmail address)).1 with
  | none | some none => exact hDone
  | some (some user) =>
    exact keeps_bind (keeps_dispatch ((findByEmail_own cfg hs hUser).sendable (by decide) _)) fun _ => hDone

theorem keeps_applyReset {body : Option Json} (hLink : LinkOk cfg v sender token)
    (h : Behaves cfg v sender p (.applyReset token body)) :
    Keeps cfg v (Harmless v sender) (AccountController.applyReset cfg token body) := by
  unfold AccountController.applyReset
  refine keeps_orReply errs_newPassword fun password hPassword => ?_
  obtain ⟨b, hBody, rfl⟩ := newPassword_ok hPassword
  refine keeps_withLink fun now vr hVerify => keeps_consumed ?_
  refine keeps_attempt (c := .hashPassword _) trivial (fun u h => by cases h) fun m s hash _ hHash => ?_
  refine keeps_attempt (c := .updatePasswordHash vr.sub hash) (fun hIs => ?_) (fun u h => by cases h)
    fun _ _ written _ _ => keeps_afterWrite written
  have hOther := (hLink .resetPassword now vr hVerify hIs).1
  exact hash_chosen (h hOther ⟨.resetPassword, now, vr, hVerify, hIs⟩ b hBody) hHash

theorem keeps_joinFromInvite {body : Option Json} (hLink : LinkOk cfg v sender token)
    (h : Behaves cfg v sender p (.joinFromInvite token body)) :
    Keeps cfg v (Harmless v sender) (AccountController.joinFromInvite cfg token body) := by
  unfold AccountController.joinFromInvite
  refine keeps_orReply errs_newPassword fun password hPassword => ?_
  obtain ⟨b, hBody, rfl⟩ := newPassword_ok hPassword
  refine keeps_withLink fun now vr hVerify => ?_
  refine keeps_attempt (c := .hashPassword _) trivial (fun u h => by cases h) fun m s hash _ hHash => ?_
  refine keeps_attempt (c := .redeemInvite vr.sub hash) (fun hIs => ?_) (fun u h => by cases h)
    fun _ _ redeemed _ _ => ?_
  · have hOther := (hLink .invite now vr hVerify hIs).1
    exact hash_chosen (h hOther ⟨.invite, now, vr, hVerify, hIs⟩ b hBody) hHash
  · cases redeemed with
    | true => exact keeps_afterWrite (.ok ())
    | false => exact keeps_plain fun u h => by cases h

theorem keeps_applyChangeEmail (hLink : LinkOk cfg v sender token) :
    Keeps cfg v (Harmless v sender) (AccountController.applyChangeEmail cfg token) := by
  refine keeps_withLink fun now vr hVerify => ?_
  refine keeps_orReply (errs_orFail fun u h => by cases h) fun address hAddress => ?_
  refine keeps_attempt (c := .findByEmail address) trivial (fun u h => by cases h) fun _ _ taken _ _ => ?_
  split
  · exact keeps_plain fun u h => by cases h
  · refine keeps_consumed (keeps_attempt (c := .changeEmail vr.sub address) (fun hIs => ?_) (fun u h => by cases h)
      fun _ _ written _ _ => keeps_written fun _ _ => keeps_plain fun u h => by cases h)
    exact (hLink .changeEmail now vr hVerify hIs).2 address (orFail_eq_ok.mp hAddress)

theorem keeps_requestChangeEmail {body : Option Json} (h : Behaves cfg v sender p (.requestChangeEmail body)) :
    Keeps cfg v (Harmless v sender) (AccountController.requestChangeEmail cfg p body) := by
  unfold AccountController.requestChangeEmail
  refine keeps_orReply errs_ownBody fun given hGiven => ?_
  obtain ⟨caller, b, hCaller, hBody, rfl⟩ := ownBody_ok hGiven
  refine keeps_attempt (c := .find _) trivial (fun u h => by cases h) fun m s user hs hUser => ?_
  refine keeps_orReply errs_ownPassword fun u hPassword => ?_
  obtain rfl := ownPassword_user hPassword
  obtain ⟨hOwn, hSame⟩ := find_own cfg hs hUser
  refine keeps_bind (keeps_dispatch fun hIs => ?_) fun _ => keeps_plain fun u h => by cases h
  obtain ⟨hGuess, hOurs⟩ := h caller b hCaller hBody (hSame hIs)
  exact hOurs (ownPassword_ok hPassword hOwn hIs fun pw hPw hAdversary => hGuess hAdversary pw hPw)

theorem keeps_changePassword {body : Option Json} (h : Behaves cfg v sender p (.changePassword body)) :
    Keeps cfg v (Harmless v sender) (AccountController.changePassword cfg p body) := by
  unfold AccountController.changePassword
  refine keeps_orReply errs_ownBody fun given hGiven => ?_
  obtain ⟨caller, b, hCaller, hBody, rfl⟩ := ownBody_ok hGiven
  refine keeps_attempt (c := .find _) trivial (fun u h => by cases h) fun m s user hs hUser => ?_
  refine keeps_orReply errs_ownPassword fun u hPassword => ?_
  obtain rfl := ownPassword_user hPassword
  obtain ⟨hOwn, hSame⟩ := find_own cfg hs hUser
  refine keeps_attempt (c := .hashPassword _) trivial (fun u h => by cases h) fun m s hash _ hHash => ?_
  refine keeps_attempt (c := .updatePasswordHash u.id hash) (fun hIs => ?_) (fun u h => by cases h)
    fun _ _ written _ _ => keeps_afterWrite written
  obtain ⟨hGuess, hChosen⟩ := h caller b hCaller hBody (hSame hIs)
  have hOther := ownPassword_ok hPassword hOwn hIs fun pw hPw hAdversary => hGuess hAdversary pw hPw
  exact hash_chosen (hChosen hOther) hHash

/-! ### Administration -/

theorem keeps_createUser (hMode : cfg.mode ≠ .none) (body : Option Json) :
    Keeps cfg v (Harmless v sender) (AdminController.createUser cfg p body) := by
  refine keeps_requireAdmin hMode fun _ _ _ => keeps_orReply errs_body fun b _ => ?_
  refine keeps_attempt (c := .findRole _) trivial (fun u h => by cases h) fun _ _ role _ _ => ?_
  refine keeps_orReply (errs_orFail fun u h => by cases h) fun role _ => ?_
  refine keeps_attempt (c := .hashPassword _) trivial (fun u h => by cases h) fun _ _ hash _ _ => ?_
  refine keeps_attempt (c := .create _ _ _ _) trivial (fun u h => by cases h) fun _ _ made _ _ => ?_
  exact keeps_written fun user _ => keeps_plain fun u h => by cases h

theorem keeps_inviteUser (hMode : cfg.mode ≠ .none) (body : Option Json) :
    Keeps cfg v (Harmless v sender) (AdminController.inviteUser cfg p body) := by
  refine keeps_requireAdmin hMode fun _ _ _ => keeps_orReply errs_body fun b _ => ?_
  refine keeps_attempt (c := .findRole _) trivial (fun u h => by cases h) fun _ _ role _ _ => ?_
  refine keeps_orReply (errs_orFail fun u h => by cases h) fun role _ => ?_
  refine keeps_attempt (c := .create _ _ _ _) trivial (fun u h => by cases h) fun m s made hs hMade => ?_
  refine keeps_written fun user hOk => ?_
  have hOwn : OwnRow v user := create_own hs (hOk ▸ hMade)
  exact keeps_bind (keeps_dispatch (hOwn.sendable (by decide) _)) fun _ => keeps_plain fun u h => by cases h

theorem other_of_admin {admin : AuthPrincipal} (hAdmin : sender = .adversary → ∀ a, p = some a → isAdmin a = false)
    (hCaller : p = some admin) (hIsAdmin : isAdmin admin = true) : sender = .other := by
  cases hSender : sender with
  | other => rfl
  | adversary => simp [hAdmin hSender admin hCaller] at hIsAdmin

theorem keeps_updateUser (hMode : cfg.mode ≠ .none)
    (hAdmin : sender = .adversary → ∀ a, p = some a → isAdmin a = false) {id : String} {body : Option Json}
    (h : Behaves cfg v sender p (.updateUser id body)) :
    Keeps cfg v (Harmless v sender) (AdminController.updateUser cfg p id body) := by
  refine keeps_requireAdmin hMode fun admin hCaller hIsAdmin => ?_
  have hOther := other_of_admin hAdmin hCaller hIsAdmin
  refine keeps_orReply ?_ fun given hGiven => ?_
  · refine .bind (errs_ensure fun u h => by cases h) fun _ => .bind (errs_orFail fun u h => by cases h) fun b => ?_
    refine .bind ?_ fun _ => errs_ok
    unfold AdminController.newEmail
    split
    · exact errs_ok
    · exact .bind (errs_ensure fun u h => by cases h) fun _ => errs_ok
  simp only [parseBody, bind_eq_ok, orFail_eq_ok, pure_eq_ok] at hGiven
  obtain ⟨-, -, b, hBody, address, hAddress, rfl⟩ := hGiven
  have hOurs : Is v id → ∀ a, address = some a → v.ours a := by
    rintro hIs a rfl
    refine h hOther hIs b a hBody ?_
    unfold AdminController.newEmail at hAddress
    split at hAddress
    · cases hAddress
    · rename_i found hFound
      simp only [check, bind_eq_ok, ensure_eq_ok, exists_const, pure_eq_ok, Option.some.injEq] at hAddress
      rw [hFound, hAddress.2]
  have hFresh : Keeps cfg v (Harmless v sender) (attempt (.find id) internalError fun user =>
      orReply (orFail (.notFound "user") user) fun user => return .user user) :=
    keeps_attempt (c := .find id) trivial (fun u h => by cases h) fun _ _ user _ _ =>
      keeps_orReply (errs_orFail fun u h => by cases h) fun _ _ => keeps_plain fun u h => by cases h
  have hWrite : ∀ role, Keeps cfg v (Harmless v sender) (attempt (.adminUpdate id address role) internalError fun written =>
      orReply (written.mapError fault) fun _ => attempt (.find id) internalError fun user =>
        orReply (orFail (.notFound "user") user) fun user => return .user user) := fun role =>
    keeps_attempt (c := .adminUpdate id address role) hOurs (fun u h => by cases h) fun _ _ written _ _ =>
      keeps_written fun _ _ => hFresh
  unfold AdminController.withNewRole
  split
  · dsimp only
    split
    · exact hWrite none
    · exact hFresh
  · split
    · exact keeps_plain fun u h => by cases h
    · refine keeps_attempt (c := .findRole _) trivial (fun u h => by cases h) fun _ _ role _ _ => ?_
      refine keeps_orReply (errs_orFail fun u h => by cases h) fun role _ => ?_
      dsimp only
      split
      · exact hWrite (some role)
      · exact hFresh

theorem keeps_deleteUser (hMode : cfg.mode ≠ .none)
    (hAdmin : sender = .adversary → ∀ a, p = some a → isAdmin a = false) {id : String}
    (h : Behaves cfg v sender p (.deleteUser id)) :
    Keeps cfg v (Harmless v sender) (AdminController.deleteUser cfg p id) := by
  refine keeps_requireAdmin hMode fun admin hCaller hIsAdmin => ?_
  have hOther := other_of_admin hAdmin hCaller hIsAdmin
  refine keeps_orReply ?_ fun _ _ => ?_
  · exact .bind (errs_ensure fun u h => by cases h) fun _ => errs_ensure fun u h => by cases h
  exact keeps_attempt (c := .remove id) (h hOther) (fun u h => by cases h) fun _ _ written _ _ =>
    keeps_written fun _ _ => keeps_plain fun u h => by cases h

theorem handle_keeps (hMode : cfg.mode ≠ .none)
    (hAdmin : sender = .adversary → ∀ a, p = some a → isAdmin a = false) {r : AccountRequest}
    (hBehaves : Behaves cfg v sender p r) (hLink : ∀ token, r.token? = some token → LinkOk cfg v sender token) :
    Keeps cfg v (Harmless v sender) (handle cfg p r) := by
  cases r with
  | registerUser body => exact keeps_registerUser body
  | login body => exact keeps_login hBehaves
  | resendConfirm => exact keeps_resendConfirm
  | confirm token => exact keeps_confirm
  | requestReset body => exact keeps_requestReset body
  | applyReset token body => exact keeps_applyReset (hLink token rfl) hBehaves
  | requestChangeEmail body => exact keeps_requestChangeEmail hBehaves
  | applyChangeEmail token => exact keeps_applyChangeEmail (hLink token rfl)
  | joinFromInvite token body => exact keeps_joinFromInvite (hLink token rfl) hBehaves
  | changePassword body => exact keeps_changePassword hBehaves
  | createUser body => exact keeps_createUser hMode body
  | inviteUser body => exact keeps_inviteUser hMode body
  | updateUser id body => exact keeps_updateUser hMode hAdmin hBehaves
  | deleteUser id => exact keeps_deleteUser hMode hAdmin hBehaves
  | processJob k => exact keeps_processJob k

/-! ### The run -/

variable (cfg v) in
/-- Whoever has a link that is signed was sent it: the HMAC of a text is known from a message with it, and the
adversary reads none of the user's messages. -/
def Held (mails : List Mail) (sender : Sender) (token : Bytes) : Prop :=
  ∀ kind text sig, splitToken token = some (text, sig) →
    urlDecode sig = .ok (cfg.lib.hmacSha256 (deriveKey cfg.lib cfg.jwtSecret (AccountEmails.purpose kind)) text) →
    ∃ m ∈ mails, (sender = .adversary → ¬v.ours m.recipient) ∧ text = urlEncode (cfg.lib.dump m.claims)

theorem member_filter {keep : String × Json → Bool} {key : String} (hKey : ∀ v, keep (key, v) = true)
    (ms : List (String × Json)) : Json.member (ms.filter keep) key = Json.member ms key := by
  induction ms with
  | nil => rfl
  | cons m ms ih =>
    obtain ⟨k, v⟩ := m
    by_cases hKeep : keep (k, v) = true
    · rw [List.filter_cons_of_pos hKeep]
      simp only [Json.member, ih]
    · rw [List.filter_cons_of_neg hKeep, ih]
      have hNe : k ≠ key := fun hEq => hKeep (hEq ▸ hKey v)
      simp only [Json.member, if_neg hNe]

/-- What a link says is what its payload says. -/
theorem readClaims_fields {claims : Json} {purpose : Purpose} {now : Int} {vr : VerifyResult}
    (h : readClaims claims purpose now = .ok vr) :
    stringField claims "sub" = some vr.sub ∧ stringField vr.extra "new_email" = stringField claims "new_email" := by
  unfold readClaims at h
  split at h
  · split at h
    · cases h
    · split at h
      · split at h
        · cases h
        · split at h
          · rename_i sub hSub
            cases h
            refine ⟨by rw [stringField, hSub], ?_⟩
            have hKept : Json.member (claims.members.filter fun m => m.1 ∉ reserved) "new_email" =
                Json.member claims.members "new_email" := member_filter (fun _ => by simp [reserved]) _
            rw [stringField, stringField, ← hKept]
            rfl
          · cases h
      · cases h
  · cases h

/-- Links that were sent are good for those who read them. -/
theorem linkOk_of_held {mails : List Mail} (hMail : ∀ m ∈ mails, OwnMail v m)
    (hLib : ∀ m ∈ mails, cfg.lib.parse (cfg.lib.dump m.claims) = some m.claims) (hHeld : Held cfg v mails sender token) :
    LinkOk cfg v sender token := by
  intro kind now vr hVerify hIs
  have hMaster : cfg.jwtSecret ≠ [] := by
    rintro hNone
    rw [verify, if_pos hNone] at hVerify
    cases hVerify
  obtain ⟨text, sig, rfl, hSplit, hSig⟩ := verify_signature hVerify
  obtain ⟨m, hm, hReads, rfl⟩ := hHeld kind text sig hSplit hSig
  rw [verify_signed hMaster (hLib m hm) (urlDecode_eq_ok.mp hSig)] at hVerify
  obtain ⟨hSub, hExtra⟩ := readClaims_fields hVerify
  obtain ⟨hRecipient, hNew⟩ := hMail m hm vr.sub hSub hIs
  refine ⟨?_, fun address hAddress => hNew address (hExtra ▸ hAddress)⟩
  cases hSender : sender with
  | other => rfl
  | adversary => exact absurd hRecipient (hReads hSender)

/-- An adversary who reads none of the user's mail, does not know his password and is no administrator never takes
over his account: the user is still there with an address and a password of his own, his links go to him alone,
and no reply to the adversary signs him in as the user. -/
theorem no_takeover (hMode : cfg.mode ≠ .none) {start : AccountState} (hStart : Guarded v start)
    {events : List AccountEvent}
    (hBehaves : ∀ n sender p r, .request n sender p r ∈ events →
      (sender = .adversary → ∀ a, p = some a → isAdmin a = false) ∧ Behaves cfg v sender p r)
    (hLinks : ∀ before n sender p r after, events = before ++ .request n sender p r :: after →
      ∀ token, r.token? = some token → Held cfg v (serveAccounts cfg start before).state.mail sender token)
    (hLib : ∀ m ∈ (serveAccounts cfg start events).state.mail, cfg.lib.parse (cfg.lib.dump m.claims) = some m.claims) :
    Guarded v (serveAccounts cfg start events).state ∧
      ∀ entry ∈ (serveAccounts cfg start events).replies, Harmless v entry.2.1 entry.2.2 := by
  have hRefl : ∀ s, Grows s s := fun _ _ h => h
  have hTrans : ∀ a b c, Grows a b → Grows b c → Grows a c := fun _ _ _ hFirst hSecond m hm => hSecond m (hFirst m hm)
  suffices hRun : AnswersOk (AccountState.exec cfg) (Guarded v) Grows (fun reply => Harmless v reply.1 reply.2)
      (serveAccounts cfg start events) from ⟨hRun.inv, hRun.replies⟩
  refine AnswersOk.run_along hRefl hTrans (.idle hStart) (fun before t n program after hEvents hBefore s _ => ?_)
    (fun c now hIn => ?_)
  · obtain ⟨early, rest, rfl, rfl, hRest⟩ := List.map_eq_append_iff.mp hEvents
    obtain ⟨e, late, rfl, hEvent, -⟩ := List.map_eq_cons_iff.mp hRest
    cases e with
    | next => cases hEvent
    | request n sender p r =>
      cases hEvent
      obtain ⟨hAdmin, hRequest⟩ := hBehaves n sender p r (by simp)
      have hSent : Grows (serveAccounts cfg start early).state
          (serveAccounts cfg start (early ++ .request n sender p r :: late)).state := by
        rw [serveAccounts, serveAccounts, List.map_append, Service.run, Service.run, List.foldl_append]
        exact Service.run_changes hRefl hTrans (fun now c s => exec_grows cfg now c s) _ _
      have hLink : ∀ token, r.token? = some token → LinkOk cfg v sender token := fun token hToken =>
        linkOk_of_held hBefore.inv.mail (fun m hm => hLib m (hSent m hm)) (hLinks early n sender p r late rfl token hToken)
      exact (handle_keeps hMode hAdmin hRequest hLink s).bind fun reply _ hReply => hReply
  · obtain ⟨e, -, hEvent⟩ := List.mem_map.mp hIn
    cases e <;> cases hEvent

end

/-! ### A run -/

/-- The functions at the texts of the run. -/
def runConfig : AccountConfig where
  lib := {
    hmacSha256 := fun key text =>
      if key = ascii "secret" ∧ text = ascii "tokens:reset" then
        [212, 79, 213, 172, 117, 158, 125, 61, 98, 110, 22, 33, 249, 247, 131, 196, 240, 155, 104, 82, 184, 177, 236, 192,
          219, 117, 219, 98, 61, 141, 225, 14]
      else
        [18, 14, 19, 4, 90, 32, 172, 26, 109, 127, 229, 0, 115, 77, 214, 3, 217, 95, 0, 45, 181, 94, 43, 61, 243, 233,
          130, 202, 254, 231, 34, 8]
    sha256Hex := fun _ => "b1b1bdb480c61d075300d9bff7d9cb69cf31695ea048e478facadf426e8d0fb0"
    parse := fun _ => some (payload "00000000-0000-0000-0000-000000000001" .resetPassword 3600 (.obj []) 1700000000)
    dump := fun _ => ascii
      "\x7b\"exp\":1700003600,\"iat\":1700000000,\"purpose\":\"reset\",\"sub\":\"00000000-0000-0000-0000-000000000001\"\x7d" }
  passwords := { hash := fun _ salt => salt, strVerify := fun stored plaintext =>
    stored = "$argon2id$1" && plaintext = "mine alone" }
  mode := .jwt
  jwtSecret := ascii "secret"
  viaJobs := false

def oneUser : AccountState where
  users := [⟨"00000000-0000-0000-0000-000000000001", "a@example.kz", some "$argon2id$1", true, 1⟩]
  roles := []
  used := []
  jobs := []
  mail := []

def owner : Victim := ⟨1, (· = "a@example.kz"), (· = "$argon2id$1")⟩

theorem guarded_oneUser : Guarded owner oneUser := by
  have hId : readUuid "00000000-0000-0000-0000-000000000001" = some 1 := by decide +kernel
  refine ⟨⟨_, List.mem_singleton_self _, hId⟩, fun u hu _ => ?_, fun _ h => (by cases h), fun _ h => (by cases h)⟩
  cases List.mem_singleton.mp hu
  exact ⟨rfl, fun hash hHash => (Option.some.inj hHash).symm⟩

def midday : Moment := ⟨1700000000, .answered, "", "$argon2id$2"⟩

/-- The adversary has a link sent to the user, makes one up for himself, and guesses the password. -/
def guessing : List AccountEvent :=
  [.request 0 .adversary none (.requestReset (some (.obj [("email", .str "a@example.kz")]))), .next 0 midday,
    .next 0 midday, .next 0 midday, .next 0 midday,
    .request 1 .adversary none (.applyReset (ascii "link") (some (.obj [("new_password", .str "taken over")]))),
    .next 1 midday, .next 1 midday,
    .request 2 .adversary none (.login (some (.obj [("email", .str "a@example.kz"), ("password", .str "guess")]))),
    .next 2 midday, .next 2 midday]

theorem mail_guessing : (serveAccounts runConfig oneUser guessing).state.mail =
    [⟨"a@example.kz", .resetPassword,
      payload "00000000-0000-0000-0000-000000000001" .resetPassword 3600 (.obj []) 1700000000⟩] := by
  rfl

theorem no_takeover_guessing :
    ¬∃ entry ∈ (serveAccounts runConfig oneUser guessing).replies,
      entry.2.1 = .adversary ∧ ∃ u, entry.2.2 = .session u ∧ readUuid u.id = some 1 := by
  rintro ⟨entry, hEntry, hAdversary, u, hSession, hIs⟩
  have hBehaves : ∀ n sender p r, .request n sender p r ∈ guessing →
      (sender = .adversary → ∀ a, p = some a → isAdmin a = false) ∧ Behaves runConfig owner sender p r := by
    intro n sender p r hIn
    simp only [guessing, List.mem_cons, AccountEvent.request.injEq, reduceCtorEq, false_or, List.not_mem_nil,
      or_false] at hIn
    rcases hIn with ⟨rfl, rfl, rfl, rfl⟩ | ⟨rfl, rfl, rfl, rfl⟩ | ⟨rfl, rfl, rfl, rfl⟩
    · exact ⟨fun _ a h => (by cases h), trivial⟩
    · exact ⟨fun _ a h => (by cases h), fun h => (by cases h)⟩
    · refine ⟨fun _ a h => (by cases h), fun _ b password hBody hPassword hash hSecret => ?_⟩
      cases hBody
      cases hPassword
      cases hSecret
      decide +kernel
  have hLinks : ∀ before n sender p r after, guessing = before ++ .request n sender p r :: after → ∀ token,
      r.token? = some token → Held runConfig owner (serveAccounts runConfig oneUser before).state.mail sender token := by
    intro before n sender p r after hEvents token hToken kind text sig hSplit
    have hIn : AccountEvent.request n sender p r ∈ guessing := by simp [hEvents]
    simp only [guessing, List.mem_cons, AccountEvent.request.injEq, reduceCtorEq, false_or, List.not_mem_nil,
      or_false] at hIn
    rcases hIn with ⟨-, -, -, rfl⟩ | ⟨-, -, -, rfl⟩ | ⟨-, -, -, rfl⟩
    · cases hToken
    · cases hToken
      have hNone : splitToken (ascii "link") = none := by decide +kernel
      rw [hNone] at hSplit
      cases hSplit
    · cases hToken
  have hLib : ∀ m ∈ (serveAccounts runConfig oneUser guessing).state.mail,
      runConfig.lib.parse (runConfig.lib.dump m.claims) = some m.claims := by
    intro m hm
    rw [mail_guessing] at hm
    cases List.mem_singleton.mp hm
    rfl
  exact (no_takeover (by decide) guarded_oneUser hBehaves hLinks hLib).2 entry hEntry hAdversary u hSession hIs

end CyberAccountant.Accounts
