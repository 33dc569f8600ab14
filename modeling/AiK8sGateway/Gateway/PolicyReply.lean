import AiK8sGateway.Main

/-!
# Reading the Answer of the Policy Engine

What `_query_opa` makes of each outcome of its HTTP call, stated about the outcome
itself: which replies count as an allow, and which ones it cannot read at all.  An allow
is by truthiness, as in `bool(result.get("allow", False))`: the text `"false"` is one.
Where `allow` is a boolean, it is an allow exactly when it is `true`.

## Main results

- `readDecision_allow_iff`: the gateway takes a reply for an allow exactly when it is a
  2xx JSON object whose `result.allow` is truthy.
- `answersAllow_eq_answersTrue`: for a boolean `allow` that is the plain reading.
- `readDecision_ok_iff`: it reaches a decision exactly on the readable replies.
-/

namespace AiK8sGateway

open Foundations PythonText

/-- A 2xx status. -/
def isSuccess (status : Nat) : Bool := 200 ≤ status && status < 300

/-- `result.allow` of a response body, where there is one. -/
def resultAllow (value : Json) : Option Json := (value.field? "result").bind (·.field? "allow")

/-- The reply is a 2xx JSON body with a truthy `result.allow`: what the gateway takes for
    an allow, of whatever type the value is. -/
def answersAllow : HttpReply → Bool
  | .response status (.ok value) => isSuccess status && (resultAllow value).any Json.truthy
  | _ => false

/-- The reply is a 2xx JSON body with the boolean `result.allow` true. -/
def answersTrue : HttpReply → Bool
  | .response status (.ok value) =>
    isSuccess status && (match resultAllow value with | some (.bool b) => b | _ => false)
  | _ => false

/-- `result.allow` of a 2xx reply is a boolean, where there is one. -/
def allowIsBoolean : HttpReply → Bool
  | .response status (.ok value) =>
    !isSuccess status || (match resultAllow value with
      | none => true
      | some (.bool _) => true
      | some _ => false)
  | _ => true

/-- A boolean `allow` is truthy exactly when it is `true`. -/
theorem answersAllow_eq_answersTrue {reply : HttpReply} (h : allowIsBoolean reply = true) :
    answersAllow reply = answersTrue reply := by
  cases reply with
  | raised _ => rfl
  | response status body =>
    cases body with
    | error _ => rfl
    | ok value =>
      simp only [answersAllow, answersTrue, allowIsBoolean] at h ⊢
      cases hstatus : isSuccess status with
      | false => rfl
      | true =>
        cases hallow : resultAllow value with
        | none => rfl
        | some v =>
          cases v with
          | bool b => rfl
          | _ => simp [hstatus, hallow] at h

/-- A 2xx body that the chained `get` calls can be made on: an object, whose `result`
    is absent or an object. -/
def readableBody : Json → Bool
  | .obj fields =>
    match fields.lookup "result" with
    | none => true
    | some (.obj _) => true
    | some _ => false
  | _ => false

/-- The reply leads to a decision: a transport error, a non-2xx status, or a readable
    body. -/
def readable : HttpReply → Bool
  | .raised (.requestError _) => true
  | .raised (.httpStatusError _) => true
  | .raised _ => false
  | .response status (.ok value) => !isSuccess status || readableBody value
  | .response status (.error _) => !isSuccess status

/-- A readable body is an object, and so is what stands for its `result`. -/
theorem exists_result_of_readableBody {value : Json} (h : readableBody value = true) :
    ∃ fields result, value = .obj fields ∧
      (fields.lookup "result").getD (.obj []) = .obj result := by
  cases value with
  | obj fields =>
    simp only [readableBody] at h
    cases hlookup : fields.lookup "result" with
    | none => exact ⟨fields, [], rfl, by simp [hlookup]⟩
    | some v =>
      cases v with
      | obj result => exact ⟨fields, result, rfl, by simp [hlookup]⟩
      | _ => simp [hlookup] at h
  | _ => cases h

/-- A body that cannot be read has no `result.allow`. -/
theorem resultAllow_of_unreadable {value : Json} (h : readableBody value = false) :
    resultAllow value = none := by
  cases value with
  | obj fields =>
    simp only [resultAllow, Json.field?, readableBody] at h ⊢
    cases hlookup : fields.lookup "result" with
    | none => rfl
    | some result => cases result <;> simp_all
  | _ => rfl

/-- On a 2xx object the answer is the truth value of `allow`, false by default. -/
theorem answersAllow_of_obj {status : Nat} {fields result : List (String × Json)}
    (h : isSuccess status = true)
    (hresult : (fields.lookup "result").getD (.obj []) = .obj result) :
    answersAllow (.response status (.ok (.obj fields))) =
      ((result.lookup "allow").getD (.bool false)).truthy := by
  cases hlookup : fields.lookup "result" with
  | none =>
    obtain rfl : [] = result := by simpa [hlookup] using hresult
    simp [answersAllow, h, resultAllow, Json.field?, hlookup, Json.truthy]
  | some v =>
    obtain rfl : v = .obj result := by simpa [hlookup] using hresult
    cases hentry : result.lookup "allow" <;>
      simp [answersAllow, h, resultAllow, Json.field?, hlookup, hentry, Json.truthy]

variable [Runtime]

/-- A non-2xx response is a denial that names the status. -/
theorem readDecision_of_not_success {status : Nat} {body : Except String Json}
    (h : isSuccess status = false) :
    readDecision (.response status body) =
      .ok (false, "OPA returned HTTP " ++ toString status ++ " — failing closed") := by
  have hstatus : ¬ (200 ≤ status ∧ status < 300) := by simpa [isSuccess] using h
  simp only [readDecision, readReply, if_pos hstatus]

/-- On a 2xx object the decision is what the `get` calls on `result` say. -/
theorem readDecision_of_obj {status : Nat} {fields : List (String × Json)}
    (h : isSuccess status = true) {result : List (String × Json)}
    (hresult : (fields.lookup "result").getD (.obj []) = .obj result) :
    readDecision (.response status (.ok (.obj fields))) =
      .ok (((result.lookup "allow").getD (.bool false)).truthy,
        ((result.lookup "reason").getD (.str "OPA decision (no reason provided)")).toStr) := by
  have hstatus : 200 ≤ status ∧ status < 300 := by simpa [isSuccess] using h
  simp [readDecision, readReply, hstatus, Json.getD, hresult, Except.mapError, bind, Except.bind,
    pure, Except.pure]

/-- On any other 2xx body the `get` calls raise, and nothing catches that. -/
theorem readDecision_of_unreadable {status : Nat} {value : Json} (h : isSuccess status = true)
    (hvalue : readableBody value = false) :
    ∃ e, readDecision (.response status (.ok value)) = .error (.builtin (.attributeError e)) := by
  have hstatus : 200 ≤ status ∧ status < 300 := by simpa [isSuccess] using h
  cases value with
  | obj fields =>
    cases hlookup : fields.lookup "result" with
    | none => simp [readableBody, hlookup] at hvalue
    | some result =>
      cases result with
      | obj _ => simp [readableBody, hlookup] at hvalue
      | _ =>
        exact ⟨_, by simp [readDecision, readReply, hstatus, Json.getD, hlookup, Except.mapError,
          bind, Except.bind]; rfl⟩
  | _ =>
    exact ⟨_, by simp [readDecision, readReply, hstatus, Json.getD, Except.mapError, bind,
      Except.bind]; rfl⟩

/-- **The three outcomes of a query**: allow, deny, and an exception. -/
theorem readDecision_cases (reply : HttpReply) :
    (answersAllow reply = true ∧ readable reply = true ∧
        ∃ reason, readDecision reply = .ok (true, reason)) ∨
      (answersAllow reply = false ∧ readable reply = true ∧
        ∃ reason, readDecision reply = .ok (false, reason)) ∨
      (answersAllow reply = false ∧ readable reply = false ∧
        ∃ e, readDecision reply = .error e) := by
  -- By the way the exchange ended: an exception, another status, or a 2xx body.
  cases reply with
  | raised e =>
    cases e with
    | requestError msg => exact .inr (.inl ⟨rfl, rfl, _, rfl⟩)
    | httpStatusError code => exact .inr (.inl ⟨rfl, rfl, _, rfl⟩)
    | _ => exact .inr (.inr ⟨rfl, rfl, _, rfl⟩)
  | response status body =>
    cases hstatus : isSuccess status with
    | false =>
      -- Another status is a denial.
      refine .inr (.inl ⟨?_, ?_, _, readDecision_of_not_success hstatus⟩)
      · cases body <;> simp [answersAllow, hstatus]
      · cases body <;> simp [readable, hstatus]
    | true =>
      cases body with
      | error msg =>
        -- The body does not decode, which nothing catches.
        refine .inr (.inr ⟨rfl, by simp [readable, hstatus], .jsonDecodeError msg, ?_⟩)
        have hstatus' : 200 ≤ status ∧ status < 300 := by simpa [isSuccess] using hstatus
        simp [readDecision, readReply, hstatus', Except.mapError, bind, Except.bind]
      | ok value =>
        cases hvalue : readableBody value with
        | false =>
          -- A `get` call fails on the body, which nothing catches either.
          obtain ⟨e, he⟩ := readDecision_of_unreadable hstatus hvalue
          refine .inr (.inr ⟨?_, by simp [readable, hstatus, hvalue], _, he⟩)
          simp [answersAllow, resultAllow_of_unreadable hvalue]
        | true =>
          -- The body is read, and its `allow` decides.
          obtain ⟨fields, result, rfl, hresult⟩ := exists_result_of_readableBody hvalue
          have hread := readDecision_of_obj hstatus hresult
          rw [← answersAllow_of_obj hstatus hresult] at hread
          have hreadable : readable (.response status (.ok (.obj fields))) = true := by
            simp [readable, hvalue]
          cases h : answersAllow (.response status (.ok (.obj fields))) with
          | true => exact .inl ⟨rfl, hreadable, _, h ▸ hread⟩
          | false => exact .inr (.inl ⟨rfl, hreadable, _, h ▸ hread⟩)

/-- The gateway takes a reply for an allow exactly when it answers allow. -/
theorem readDecision_allow_iff {reply : HttpReply} :
    (∃ reason, readDecision reply = .ok (true, reason)) ↔ answersAllow reply = true := by
  rcases readDecision_cases reply with ⟨h, -, r, hr⟩ | ⟨h, -, r, hr⟩ | ⟨h, -, e, he⟩ <;> simp_all

/-- The gateway takes a reply for a denial exactly when it is readable and no allow. -/
theorem readDecision_deny_iff {reply : HttpReply} :
    (∃ reason, readDecision reply = .ok (false, reason)) ↔
      readable reply = true ∧ answersAllow reply = false := by
  rcases readDecision_cases reply with ⟨h, -, r, hr⟩ | ⟨h, h', r, hr⟩ | ⟨h, h', e, he⟩ <;> simp_all

/-- The gateway reaches a decision exactly on a readable reply. -/
theorem readDecision_ok_iff {reply : HttpReply} :
    (∃ d, readDecision reply = .ok d) ↔ readable reply = true := by
  rcases readDecision_cases reply with ⟨-, h, r, hr⟩ | ⟨-, h, r, hr⟩ | ⟨-, h, e, he⟩ <;> simp_all

end AiK8sGateway
