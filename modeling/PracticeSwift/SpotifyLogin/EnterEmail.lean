import PracticeSwift.Library.Transition

/-!
# The email login screen

The Next button is enabled or disabled when a text field is left, from the texts that both fields
hold then.  Texts go on being edited afterwards, so what the button says is only as good as the
edits since: it can be trusted as long as no field is emptied while the button is enabled.
-/

open Transition

namespace PracticeSwift.SpotifyLogin

inductive TextField
  | email
  | password

inductive Event
  /-- The user gives a field this text. -/
  | edit (field : TextField) (text : String)
  /-- The user leaves a field. -/
  | endEditing (field : TextField)
  /-- The user taps Next. -/
  | nextButtonTapped

/-- The texts of the two fields, the button, and the users that the screen has asked to create,
the latest first. -/
structure EnterEmail where
  emailTextField : Option String
  passwordTextField : Option String
  isEnabled : Bool
  createUser : List (String × String)

namespace EnterEmail

/-- `viewDidLoad`, with the texts that the fields hold then. -/
def viewDidLoad (email password : String) : EnterEmail where
  emailTextField := some email
  passwordTextField := some password
  isEnabled := false
  createUser := []

def edit (s : EnterEmail) (text : String) : TextField → EnterEmail
  | .email => { s with emailTextField := some text }
  | .password => { s with passwordTextField := some text }

/-- `textFieldDidEndEditing(_:)`, which does not look at its argument. -/
def textFieldDidEndEditing (s : EnterEmail) (_ : TextField) : EnterEmail :=
  let isEmailEmpty := s.emailTextField = some ""
  let isPassWordEmpty := s.passwordTextField = some ""
  { s with isEnabled := !isEmailEmpty && !isPassWordEmpty }

def nextButtonTapped (s : EnterEmail) : EnterEmail :=
  let email := s.emailTextField.getD ""
  let password := s.passwordTextField.getD ""
  { s with createUser := (email, password) :: s.createUser }

/-- A disabled button cannot be tapped. -/
def step (s : EnterEmail) : Event → Option EnterEmail
  | .edit field text => some (s.edit text field)
  | .endEditing field => some (s.textFieldDidEndEditing field)
  | .nextButtonTapped => if s.isEnabled then some s.nextButtonTapped else none

/-- The runs of the screen, from the texts that its fields hold when it is loaded. -/
def system (email password : String) : System EnterEmail Event where
  start s := s = viewDidLoad email password
  step s e s' := s.step e = some s'

/-- What a step does. -/
inductive Step (s : EnterEmail) : Event → EnterEmail → Prop
  | edited (field : TextField) (text : String) : Step s (.edit field text) (s.edit text field)
  | left (field : TextField) : Step s (.endEditing field) (s.textFieldDidEndEditing field)
  | tapped (enabled : s.isEnabled) : Step s .nextButtonTapped s.nextButtonTapped

theorem step_cases {s s' : EnterEmail} {e : Event} (h : s.step e = some s') : Step s e s' := by
  cases e with
  | edit field text =>
    obtain rfl := Option.some.inj h
    exact .edited field text
  | endEditing field =>
    obtain rfl := Option.some.inj h
    exact .left field
  | nextButtonTapped =>
    simp only [step] at h
    split_ifs at h with henabled
    obtain rfl := Option.some.inj h
    exact .tapped henabled

/-! ## What the button says -/

/-- Next is enabled with both fields filled in only, and no user without an email or a password has
been asked for. -/
structure BothFilled (s : EnterEmail) : Prop where
  filled : s.isEnabled → s.emailTextField ≠ some "" ∧ s.passwordTextField ≠ some ""
  created : ∀ user ∈ s.createUser, user.1 ≠ "" ∧ user.2 ≠ ""

/-- No field was emptied while Next was enabled. -/
def NeverEmptied (email password : String) (past : List Event) : Prop :=
  ∀ field old s, .edit field "" :: old <:+ past → (system email password).Run old s →
    s.isEnabled = false

variable {email password : String} {past : List Event} {s s' : EnterEmail}

theorem NeverEmptied.earlier {old : List Event} (h : NeverEmptied email password past)
    (hold : old <:+ past) : NeverEmptied email password old :=
  fun _ _ _ hsuffix => h _ _ _ (hsuffix.trans hold)

/-- A text field always has a text. -/
structure HasTexts (s : EnterEmail) : Prop where
  email : s.emailTextField.isSome
  password : s.passwordTextField.isSome

theorem hasTexts_run (h : (system email password).Run past s) : s.HasTexts := by
  apply h.preserves (I := HasTexts)
  · rintro _ rfl
    exact ⟨rfl, rfl⟩
  · intro s e s' hs hstep
    cases step_cases hstep with
    | edited field text =>
      cases field with
      | email => exact ⟨rfl, hs.password⟩
      | password => exact ⟨hs.email, rfl⟩
    | left => exact ⟨hs.email, hs.password⟩
    | tapped => exact ⟨hs.email, hs.password⟩

theorem getD_ne_empty {text : Option String} (htext : text.isSome) (h : text ≠ some "") :
    text.getD "" ≠ "" := by
  obtain ⟨string, rfl⟩ := Option.isSome_iff_exists.1 htext
  exact fun hempty => h (congrArg some hempty)

/-- One step keeps the button honest unless it empties a field while Next is enabled. -/
theorem bothFilled_step {e : Event} (hs : s.BothFilled) (htexts : s.HasTexts)
    (hstep : s.step e = some s')
    (hempty : ∀ field, e = .edit field "" → s.isEnabled = false) : s'.BothFilled := by
  cases step_cases hstep with
  | edited field text =>
    have htext : s.isEnabled → text ≠ "" := by
      rintro henabled rfl
      simp [hempty field rfl] at henabled
    cases field with
    | email =>
      refine ⟨fun henabled => ⟨?_, (hs.filled henabled).2⟩, hs.created⟩
      exact fun hsome => htext henabled (Option.some.inj hsome)
    | password =>
      refine ⟨fun henabled => ⟨(hs.filled henabled).1, ?_⟩, hs.created⟩
      exact fun hsome => htext henabled (Option.some.inj hsome)
  | left field =>
    refine ⟨fun henabled => ?_, hs.created⟩
    simpa [textFieldDidEndEditing] using henabled
  | tapped henabled =>
    obtain ⟨hemail, hpassword⟩ := hs.filled henabled
    refine ⟨hs.filled, List.forall_mem_cons.2 ⟨⟨?_, ?_⟩, hs.created⟩⟩
    · exact getD_ne_empty htexts.email hemail
    · exact getD_ne_empty htexts.password hpassword

theorem bothFilled_of_neverEmptied (h : (system email password).Run past s)
    (hpast : NeverEmptied email password past) : s.BothFilled := by
  induction h with
  | start h =>
    obtain rfl := h
    exact ⟨fun henabled => absurd henabled Bool.false_ne_true, List.forall_mem_nil _⟩
  | @step past s s' e h hstep ih =>
    have hs := ih (hpast.earlier (List.suffix_cons e past))
    apply bothFilled_step hs (hasTexts_run h) hstep
    rintro field rfl
    exact hpast field past s (List.suffix_refl _) h

/-- Emptying a field leaves the button as it was. -/
theorem not_bothFilled_edit (henabled : s.isEnabled) (field : TextField) :
    ¬ (s.edit "" field).BothFilled := by
  intro h
  cases field with
  | email => exact (h.filled henabled).1 rfl
  | password => exact (h.filled henabled).2 rfl

/-- In every state of a run Next is enabled with both fields filled in only, and no user was asked
for without an email and a password, exactly when no field was emptied while Next was enabled. -/
theorem bothFilled_iff_neverEmptied (email password : String) (past : List Event) :
    (∀ old s, old <:+ past → (system email password).Run old s → s.BothFilled) ↔
      NeverEmptied email password past := by
  constructor
  · intro hall field old s hold hrun
    by_contra henabled
    rw [Bool.not_eq_false] at henabled
    exact not_bothFilled_edit henabled field (hall _ _ hold (hrun.step rfl))
  · intro hpast old s hold hrun
    exact bothFilled_of_neverEmptied hrun (hpast.earlier hold)

/-- Both fields filled in and left, then the email emptied: Next is enabled still. -/
theorem next_goes_stale :
    ¬ ∀ (past : List Event) (s : EnterEmail), (system "" "").Run past s → s.BothFilled := by
  intro h
  have hrun : (system "" "").Run [.edit .email "", .endEditing .password,
      .edit .password "secret", .edit .email "me@example.com"] _ :=
    .step (.step (.step (.step (.start rfl) rfl) rfl) rfl) rfl
  exact ((h _ _ hrun).filled rfl).1 rfl

end EnterEmail

end PracticeSwift.SpotifyLogin
