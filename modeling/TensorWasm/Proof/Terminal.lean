import TensorWasm.Cli.Terminal

/-!
# Control characters on the terminal

What a server answers is filtered on success only: the text of an error is printed as it came (`printed_clean_iff`).
-/

namespace TensorWasm.Cli

open Api (isControl)

instance (s : String) : Decidable (Clean s) := List.decidableBAll _ _

@[simp] theorem clean_append (s t : String) : Clean (s ++ t) ↔ Clean s ∧ Clean t := by
  simp [Clean, or_imp, forall_and]

theorem clean_sanitise (s : String) : Clean (sanitiseTerminalOutput s) := by
  rw [Clean, sanitiseTerminalOutput, String.toList_ofList]
  induction s.toList with
  | nil => simp [sanitiseChars]
  | cons c cs ih =>
    rw [sanitiseChars]
    split_ifs with hcr hkept hcontrol
    · exact ih
    · exact List.forall_mem_cons.mpr ⟨by tauto, ih⟩
    · exact List.forall_mem_cons.mpr ⟨by decide, ih⟩
    · exact List.forall_mem_cons.mpr ⟨by simp [hcontrol], ih⟩

theorem clean_literal {s : String} (h : decide (Clean s)) : Clean s := of_decide_eq_true h

@[simp] theorem clean_number (n : ℕ) : Clean n.repr := by
  intro c hc
  have hdigit : c.isDigit :=
    Nat.isDigit_of_mem_toDigits (b := 10) (n := n) (by decide) (by decide) (by simpa [Nat.repr] using hc)
  simp only [Char.isDigit, Bool.and_eq_true, decide_eq_true_eq, ge_iff_le, UInt32.le_iff_toNat_le] at hdigit
  simp only [isControl, Char.toNat]
  grind

variable (reader : BodyReader)

/-- What an error shows of the body. -/
def shown (body : String) : String :=
  match reader.envelope body with
  | some (kind, message) => kind ++ message
  | none => trim body

theorem clean_renderErrorResponse (status : ℕ) (body : String) :
    Clean (renderErrorResponse reader status body) ↔ Clean (shown reader body) := by
  rw [renderErrorResponse, shown]
  cases reader.envelope body with
  | some error => simp (disch := decide) [toString, clean_literal]
  | none => by_cases htrim : trim body = "" <;> simp (disch := decide) [toString, clean_literal, htrim]

/-- What reaches the terminal unfiltered, if anything of the body does, is clean. -/
def ErrorClean (a : Answer) : Prop :=
  a.isSuccess ∨ ∀ body, a.body = .ok body → a.status = 404 ∧ reader.envelope body = none ∨ Clean (shown reader body)

variable {reader} {a : Answer} {body : String}

theorem clean_printed_error (e : String) : Clean (printed (.error e)) ↔ Clean e := by
  simp (disch := decide) [printed, toString, clean_literal]

theorem clean_notYetShipped {action : String} (haction : Clean action) (url : OwnText) :
    Clean (notYetShipped action url) := by
  simp (disch := decide) [notYetShipped, toString, clean_literal, haction, url.2]

/-- A body that could not be read does not get to the terminal. -/
theorem errorClean_unread {e : OwnText} (hbody : a.body = .error e) : ErrorClean reader a :=
  .inr fun _ hread => nomatch hbody.symm.trans hread

theorem errorClean_iff (hok : a.isSuccess = false) (hbody : a.body = .ok body) :
    ErrorClean reader a ↔ a.status = 404 ∧ reader.envelope body = none ∨ Clean (shown reader body) := by
  simp [ErrorClean, hok, hbody]

theorem clean_refusal {action : String} (haction : Clean action) (url : OwnText) (hbody : a.body = .ok body)
    (hok : a.isSuccess = false) :
    Clean (printed (.error (refusal reader action url a.status body))) ↔ ErrorClean reader a := by
  rw [clean_printed_error, errorClean_iff hok hbody, refusal]
  by_cases hmissing : a.status = 404 ∧ reader.envelope body = none
  · rw [if_pos hmissing]
    exact iff_of_true (clean_notYetShipped haction url) (.inl hmissing)
  · rw [if_neg hmissing, clean_renderErrorResponse, or_iff_right hmissing]

theorem clean_save (url output : OwnText) (a : Answer) :
    Clean (printed (save reader url output a)) ↔ ErrorClean reader a := by
  unfold save
  cases hok : a.isSuccess with
  | true =>
    refine iff_of_true ?_ (.inl hok)
    cases a.stored with
    | ok received => simp (disch := decide) [printed, toString, clean_literal, output.2]
    | error e => exact (clean_printed_error e).mpr e.2
  | false =>
    cases hbody : a.body with
    | ok body => exact clean_refusal (by decide) url hbody hok
    | error e =>
      refine iff_of_true ((clean_printed_error _).mpr ?_) (errorClean_unread hbody)
      simp (disch := decide) [toString, clean_literal, url.2, e.2]

theorem clean_restore (url : OwnText) (a : Answer) :
    Clean (printed (restore reader url a)) ↔ ErrorClean reader a := by
  unfold restore
  cases hbody : a.body with
  | ok body =>
    cases hok : a.isSuccess with
    | true => exact iff_of_true (clean_sanitise _) (.inl hok)
    | false => exact clean_refusal (by decide) url hbody hok
  | error e =>
    refine iff_of_true ((clean_printed_error _).mpr ?_) (errorClean_unread hbody)
    simp (disch := decide) [toString, clean_literal, url.2, e.2]

variable (reader)

/-- No control character is printed just when the answer is a success or what its error shows has none. -/
theorem printed_clean_iff (url output : OwnText) (a : Answer) :
    (Clean (printed (save reader url output a)) ↔ ErrorClean reader a) ∧
      (Clean (printed (restore reader url a)) ↔ ErrorClean reader a) :=
  ⟨clean_save url output a, clean_restore url a⟩

end TensorWasm.Cli
