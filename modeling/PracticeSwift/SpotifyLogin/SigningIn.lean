import Mathlib.Data.Int.Notation
import Mathlib.Data.List.Perm.Basic
import PracticeSwift.SpotifyLogin.EnterEmail

/-!
# Signing in

A tap on Next asks `FIRAuth` to create a user.  If the email is taken the screen asks it to sign in
instead, with the texts of the tap and not those of the fields; any other error becomes the text of
a label, and a success shows the main screen.  `FIRAuth` answers later and in any order, from its
own queue, and its completions run one by one on the main queue.  Calls that lack a password or an
email it answers itself, and that is why the main screen is never shown for them although Next can
be tapped with an emptied field.
-/

open Transition

namespace PracticeSwift.SpotifyLogin

/-- An error of `FIRAuthErrorDomain`. -/
structure AuthError where
  code : ℤ
  localizedDescription : String
  deriving DecidableEq

/-- The methods of `Auth` that the screen calls. -/
inductive AuthMethod
  | createUser
  | signIn
  deriving DecidableEq

/-- A call, with the email and the password it is made with. -/
structure AuthCall where
  method : AuthMethod
  user : String × String
  deriving DecidableEq

/-- What the completion is called with. -/
abbrev AuthAnswer := Except AuthError Unit

namespace FIRAuth

def weakPasswordError : AuthError := ⟨17026, "The password must be 6 characters long or more."⟩

def missingEmailError : AuthError := ⟨17034, "An email address must be provided."⟩

def wrongPasswordError : AuthError :=
  ⟨17009, "The password is invalid or the user does not have a password."⟩

/-- `internalCreateUserWithEmail:password:completion:` and `signInWithEmail:password:callback:`,
up to their request to the backend. -/
def localError (call : AuthCall) : Option AuthError :=
  match call.method with
  | .createUser =>
    if call.user.2.isEmpty then some weakPasswordError
    else if call.user.1.isEmpty then some missingEmailError
    else none
  | .signIn => if call.user.2.isEmpty then some wrongPasswordError else none

/-- What is not answered locally the backend answers as it likes. -/
def mayAnswer (call : AuthCall) (answer : AuthAnswer) : Bool :=
  match localError call, answer with
  | some error, .error error' => error = error'
  | some _, .ok _ => false
  | none, _ => true

end FIRAuth

/-- The screen, the calls that `FIRAuth` has not answered, the completions on the main queue, the
label once it has been set, and what has become of the taps: the users the main screen was shown for
and the ones an error was shown for, the latest first. -/
structure SigningIn where
  screen : EnterEmail
  calls : List AuthCall := []
  mainQueue : List (AuthCall × AuthAnswer) := []
  errorMessageLabel : Option String := none
  shown : List (String × String) := []
  failed : List ((String × String) × String) := []

inductive LoginEvent
  | input (e : Event)
  /-- `FIRAuth` puts the completion of a call on the main queue. -/
  | answered (call : AuthCall) (answer : AuthAnswer)
  /-- The next completion runs. -/
  | completed

namespace SigningIn

def createUser (s : SigningIn) (user : String × String) : SigningIn :=
  { s with calls := s.calls ++ [⟨.createUser, user⟩] }

def loginUser (s : SigningIn) (user : String × String) : SigningIn :=
  { s with calls := s.calls ++ [⟨.signIn, user⟩] }

def showMainViewController (s : SigningIn) (user : String × String) : SigningIn :=
  { s with shown := user :: s.shown }

def showError (s : SigningIn) (user : String × String) (error : AuthError) : SigningIn :=
  { s with
    errorMessageLabel := some error.localizedDescription
    failed := (user, error.localizedDescription) :: s.failed }

/-- The completions that `nextButtonTapped` and `loginUser` pass. -/
def complete (s : SigningIn) (call : AuthCall) (answer : AuthAnswer) : SigningIn :=
  match call.method, answer with
  | .createUser, .error error =>
    if error.code = 17007 then s.loginUser call.user else s.showError call.user error
  | .signIn, .error error => s.showError call.user error
  | _, .ok _ => s.showMainViewController call.user

def step (s : SigningIn) : LoginEvent → Option SigningIn
  | .input e => do
    let screen ← s.screen.step e
    match e, screen.createUser with
    | .nextButtonTapped, user :: _ => return { s with screen }.createUser user
    | _, _ => return { s with screen }
  | .answered call answer =>
    if call ∈ s.calls ∧ FIRAuth.mayAnswer call answer then
      some { s with calls := s.calls.erase call, mainQueue := s.mainQueue ++ [(call, answer)] }
    else none
  | .completed =>
    match s.mainQueue with
    | [] => none
    | (call, answer) :: mainQueue => some ({ s with mainQueue }.complete call answer)

/-- The runs of the screen from `viewDidLoad`. -/
def system (email password : String) : System SigningIn LoginEvent where
  start s := s = { screen := .viewDidLoad email password }
  step s e s' := s.step e = some s'

/-- What a step does. -/
inductive Step (s : SigningIn) : LoginEvent → SigningIn → Prop
  | input {e : Event} {screen : EnterEmail} (createUser : screen.createUser = s.screen.createUser) :
      Step s (.input e) { s with screen }
  | tapped {e : Event} {screen : EnterEmail} {user : String × String}
      (createUser : screen.createUser = user :: s.screen.createUser) :
      Step s (.input e) ({ s with screen }.createUser user)
  | answered {call : AuthCall} {answer : AuthAnswer} (called : call ∈ s.calls)
      (answers : FIRAuth.mayAnswer call answer) :
      Step s (.answered call answer)
        { s with calls := s.calls.erase call, mainQueue := s.mainQueue ++ [(call, answer)] }
  | completed {call : AuthCall} {answer : AuthAnswer} {mainQueue : List (AuthCall × AuthAnswer)}
      (queued : s.mainQueue = (call, answer) :: mainQueue) :
      Step s .completed ({ s with mainQueue }.complete call answer)

theorem step_cases {s s' : SigningIn} {e : LoginEvent} (h : s.step e = some s') : Step s e s' := by
  cases e with
  | input e =>
    obtain ⟨screen, hscreen, h⟩ := Option.bind_eq_some_iff.1 h
    cases EnterEmail.step_cases hscreen with
    | edited field text =>
      obtain rfl := Option.some.inj h
      cases field <;> exact .input rfl
    | left field =>
      obtain rfl := Option.some.inj h
      exact .input rfl
    | tapped =>
      obtain rfl := Option.some.inj h
      exact .tapped rfl
  | answered call answer =>
    simp only [step] at h
    split_ifs at h with hcall
    obtain rfl := Option.some.inj h
    exact .answered hcall.1 hcall.2
  | completed =>
    simp only [step] at h
    split at h
    · cases h
    · obtain rfl := Option.some.inj h
      exact .completed ‹_›

/-! ## What becomes of a tap -/

/-- The users of the calls under way and of those that have ended. -/
def users (s : SigningIn) : List (String × String) :=
  s.calls.map AuthCall.user ++ s.mainQueue.map (fun c => c.1.user) ++ s.shown ++
    s.failed.map Prod.fst

/-- Both texts are there. -/
def Filled (user : String × String) : Prop := user.1 ≠ "" ∧ user.2 ≠ ""

/-- Every tap is accounted for once, the label has the last error, and only users with an email and
a password are signed in. -/
structure Accounted (s : SigningIn) : Prop where
  taps : s.users.Perm s.screen.createUser
  label : s.errorMessageLabel = s.failed.head?.map Prod.snd
  signIn : ∀ call ∈ s.calls, call.method = .signIn → Filled call.user
  answered : ∀ c ∈ s.mainQueue, FIRAuth.mayAnswer c.1 c.2 ∧ (c.1.method = .signIn → Filled c.1.user)
  shown : ∀ user ∈ s.shown, Filled user

theorem filled_of_localError {call : AuthCall} (h : FIRAuth.localError call = none)
    (hsignIn : call.method = .signIn → Filled call.user) : Filled call.user := by
  cases hmethod : call.method with
  | signIn => exact hsignIn hmethod
  | createUser =>
    simp only [FIRAuth.localError, hmethod] at h
    split_ifs at h with hpassword hemail
    exact ⟨fun hempty => hemail (hempty ▸ rfl), fun hempty => hpassword (hempty ▸ rfl)⟩

/-- A call that succeeds, or fails because the email is taken, has been to the backend. -/
theorem localError_eq_none {call : AuthCall} {answer : AuthAnswer}
    (h : FIRAuth.mayAnswer call answer)
    (hanswer : ∀ error, answer = .error error → error.code = 17007) :
    FIRAuth.localError call = none := by
  cases hlocal : FIRAuth.localError call with
  | none => rfl
  | some error =>
    cases answer with
    | ok => simp [FIRAuth.mayAnswer, hlocal] at h
    | error error' =>
      obtain rfl : error = error' := by simpa [FIRAuth.mayAnswer, hlocal] using h
      have hcode := hanswer error rfl
      unfold FIRAuth.localError at hlocal
      cases hmethod : call.method <;> simp only [hmethod] at hlocal <;> split_ifs at hlocal <;>
        obtain rfl := Option.some.inj hlocal <;> revert hcode <;> decide

theorem users_answered {s : SigningIn} {call : AuthCall} (h : call ∈ s.calls) (answer : AuthAnswer) :
    users { s with calls := s.calls.erase call, mainQueue := s.mainQueue ++ [(call, answer)] }
      |>.Perm s.users := by
  have hcalls := (List.perm_cons_erase h).map AuthCall.user
  rw [List.perm_iff_count]
  intro user
  have hcount := hcalls.count_eq user
  simp only [users, List.map_append, List.map_cons, List.map_nil, List.count_append,
    List.count_cons, List.count_nil] at hcount ⊢
  omega

theorem users_complete {s : SigningIn} {call : AuthCall} {answer : AuthAnswer}
    {mainQueue : List (AuthCall × AuthAnswer)} (h : s.mainQueue = (call, answer) :: mainQueue) :
    (complete { s with mainQueue } call answer).users.Perm s.users := by
  rw [List.perm_iff_count]
  intro user
  obtain ⟨method, user'⟩ := call
  cases answer with
  | ok =>
    have hshow : complete { s with mainQueue } ⟨method, user'⟩ (.ok ()) =
        showMainViewController { s with mainQueue } user' := by
      cases method <;> rfl
    simp only [hshow, users, showMainViewController, h, List.map_cons, List.count_append,
      List.count_cons]
    omega
  | error error =>
    unfold complete
    cases method with
    | createUser =>
      dsimp only
      split_ifs <;> simp only [users, loginUser, showError, h, List.map_append, List.map_cons,
        List.map_nil, List.count_append, List.count_cons, List.count_nil] <;> omega
    | signIn =>
      simp only [users, showError, h, List.map_cons, List.count_append, List.count_cons]
      omega

/-- One completion keeps the account: what it was called with has been checked by `FIRAuth`, and a
sign-in is asked for with the texts of a tap that the backend has answered. -/
theorem Accounted.complete {s : SigningIn} {call : AuthCall} {answer : AuthAnswer}
    {mainQueue : List (AuthCall × AuthAnswer)} (hs : s.Accounted)
    (h : s.mainQueue = (call, answer) :: mainQueue) :
    (complete { s with mainQueue } call answer).Accounted := by
  have htaps := users_complete h
  have hqueue := hs.answered
  rw [h, List.forall_mem_cons] at hqueue
  obtain ⟨⟨hanswer, hsignIn⟩, hqueue⟩ := hqueue
  unfold SigningIn.complete at htaps ⊢
  cases answer with
  | ok =>
    have hfilled : Filled call.user :=
      filled_of_localError (localError_eq_none hanswer fun _ herror => nomatch herror) hsignIn
    cases hmethod : call.method <;> rw [hmethod] at htaps <;>
      exact ⟨htaps.trans hs.taps, hs.label, hs.signIn, hqueue,
        List.forall_mem_cons.2 ⟨hfilled, hs.shown⟩⟩
  | error error =>
    cases hmethod : call.method with
    | signIn =>
      rw [hmethod] at htaps
      exact ⟨htaps.trans hs.taps, rfl, hs.signIn, hqueue, hs.shown⟩
    | createUser =>
      rw [hmethod] at htaps
      dsimp only at htaps ⊢
      split_ifs at htaps ⊢ with hcode
      · have hfilled : Filled call.user := by
          apply filled_of_localError (localError_eq_none hanswer _) hsignIn
          rintro _ ⟨⟩
          exact hcode
        refine ⟨htaps.trans hs.taps, hs.label, ?_, hqueue, hs.shown⟩
        exact List.forall_mem_append.2
          ⟨hs.signIn, List.forall_mem_cons.2 ⟨fun _ => hfilled, List.forall_mem_nil _⟩⟩
      · exact ⟨htaps.trans hs.taps, rfl, hs.signIn, hqueue, hs.shown⟩

theorem Accounted.step {s s' : SigningIn} {e : LoginEvent} (hs : s.Accounted)
    (hstep : s.step e = some s') : s'.Accounted := by
  cases step_cases hstep with
  | input hcreate => exact ⟨hcreate ▸ hs.taps, hs.label, hs.signIn, hs.answered, hs.shown⟩
  | @tapped e screen user hcreate =>
    refine ⟨?_, hs.label, ?_, hs.answered, hs.shown⟩
    · have htaps := hs.taps.cons user
      rw [← hcreate] at htaps
      apply List.Perm.trans _ htaps
      simp only [users, createUser, List.map_append, List.map_cons, List.map_nil, List.append_assoc]
      exact List.perm_middle
    · exact List.forall_mem_append.2
        ⟨hs.signIn, List.forall_mem_cons.2 ⟨fun hmethod => (nomatch hmethod), List.forall_mem_nil _⟩⟩
  | answered hcalled hanswers =>
    refine ⟨(users_answered hcalled _).trans hs.taps, hs.label, ?_, ?_, hs.shown⟩
    · exact fun c hc => hs.signIn c (List.mem_of_mem_erase hc)
    · exact List.forall_mem_append.2
        ⟨hs.answered, List.forall_mem_cons.2 ⟨⟨hanswers, hs.signIn _ hcalled⟩, List.forall_mem_nil _⟩⟩
  | completed hqueued => exact hs.complete hqueued

theorem accounted_of_run {email password : String} {past : List LoginEvent} {s : SigningIn}
    (h : (system email password).Run past s) : s.Accounted := by
  apply h.preserves (I := Accounted)
  · rintro _ rfl
    exact ⟨.refl _, rfl, List.forall_mem_nil _, List.forall_mem_nil _, List.forall_mem_nil _⟩
  · exact fun _ _ _ hs hstep => hs.step hstep

/-- In every run the main screen is shown for taps with an email and a password only. -/
theorem signedIn_filled {email password : String} {past : List LoginEvent} {s : SigningIn}
    (h : (system email password).Run past s) :
    ∀ user ∈ s.shown, user ∈ s.screen.createUser ∧ user.1 ≠ "" ∧ user.2 ≠ "" := by
  intro user huser
  have hs := accounted_of_run h
  refine ⟨hs.taps.subset ?_, hs.shown user huser⟩
  simp only [users, List.mem_append]
  exact .inl (.inr huser)

/-- The email is taken, and the user signs in.  Then the email is emptied, and Next tapped again. -/
def takenEmail : List LoginEvent :=
  [.completed, .answered ⟨.createUser, ("", "secret")⟩ (.error FIRAuth.missingEmailError),
    .input .nextButtonTapped, .input (.edit .email ""), .completed,
    .answered ⟨.signIn, ("me", "secret")⟩ (.ok ()), .completed,
    .answered ⟨.createUser, ("me", "secret")⟩ (.error ⟨17007, "taken"⟩), .input .nextButtonTapped,
    .input (.endEditing .password), .input (.edit .password "secret"), .input (.edit .email "me")]

theorem run_takenEmail : (system "" "").Run takenEmail
    { screen := ⟨some "", some "secret", true, [("", "secret"), ("me", "secret")]⟩
      errorMessageLabel := some "An email address must be provided."
      shown := [("me", "secret")]
      failed := [(("", "secret"), "An email address must be provided.")] } :=
  .of_runs (fun _ _ _ hstep => hstep) rfl rfl

theorem signedIn_filled_takenEmail : ("me", "secret").1 ≠ "" ∧ ("me", "secret").2 ≠ "" :=
  (signedIn_filled run_takenEmail _ (List.mem_singleton.2 rfl)).2

end SigningIn

end PracticeSwift.SpotifyLogin
