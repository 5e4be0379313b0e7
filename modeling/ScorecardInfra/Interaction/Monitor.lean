import ScorecardInfra.Interaction.Failure

/-!
# Monitors

A monitor follows the operations of a program and their answers with a state of its own, and says
which operations are allowed in each state. A program is safe for a monitor if it performs allowed
operations only, whatever it is answered, and returns in a state that satisfies a postcondition; for
a program that may fail there is one postcondition for values and one for errors (`Ensures`).

* Safety is composed along the program: `Prog.Safe.bind`, `Ensures.bind`, `ensures_loop`. It is
  carried from one monitor to another by a relation of their states (`Prog.Safe.simulate`).
* A program over an interface that is safe for a monitor of the interface stays safe when the
  interface is implemented, if the operations keep the two monitors related (`ensures_handle`).
* Safety is read off runs: `Leads.safe` for what is left of a program, `Exec.allows` and `Exec.post`
  for the operations of a run and its end.

## Main definitions

* `Monitor`, `Monitor.after`, `Monitor.history`, `Prog.Safe`, `Ends`, `Ensures`.

## Main results

* `Prog.Safe.bind`, `Ensures.bind`, `ensures_loop`, `ensures_handle`.
* `Leads.safe`, `safe_exec`, `Exec.allows`, `Exec.post`.
-/

namespace ScorecardInfra.Interaction

variable {S : Signature} {α β γ ε : Type}

/-- A monitor with states of type `γ`: the operations that it allows in a state, and the state after
an operation with its answer. -/
structure Monitor (S : Signature) (γ : Type) where
  allows : γ → S.Op → Prop
  next : γ → Event S → γ

/-- The state after a trace. -/
def Monitor.after (M : Monitor S γ) (g : γ) (t : Trace S) : γ := t.foldl M.next g

@[simp] theorem Monitor.after_nil (M : Monitor S γ) (g : γ) : M.after g [] = g := rfl

@[simp] theorem Monitor.after_cons (M : Monitor S γ) (g : γ) (e : Event S) (t : Trace S) :
    M.after g (e :: t) = M.after (M.next g e) t := rfl

theorem Monitor.after_append (M : Monitor S γ) (g : γ) (t u : Trace S) :
    M.after g (t ++ u) = M.after (M.after g t) u :=
  List.foldl_append

/-- The monitor that remembers everything. -/
def Monitor.history (allows : Trace S → S.Op → Prop) : Monitor S (Trace S) where
  allows := allows
  next past e := past ++ [e]

@[simp] theorem Monitor.history_next (allows : Trace S → S.Op → Prop) (past : Trace S)
    (e : Event S) :
    (history allows).next past e = past ++ [e] := rfl

theorem Monitor.after_history (allows : Trace S → S.Op → Prop) (past t : Trace S) :
    (history allows).after past t = past ++ t := by
  induction t generalizing past with
  | nil => exact (List.append_nil past).symm
  | cons e t ih =>
    rw [after_cons, ih]
    exact List.append_assoc past [e] t

/-! ### Safe programs -/

/-- From the state `g` on, the program performs operations that the monitor allows when they come,
and returns a value and in a state that satisfy `Post`. -/
def Prog.Safe (M : Monitor S γ) (Post : α → γ → Prop) : Prog S α → γ → Prop
  | .ret a, g => Post a g
  | .op o k, g => M.allows g o ∧ ∀ x, (k x).Safe M Post (M.next g ⟨o, x⟩)

variable {M : Monitor S γ}

theorem Prog.Safe.mono {Post Post' : α → γ → Prop} {p : Prog S α} {g : γ} (hp : p.Safe M Post g)
    (h : ∀ a g', Post a g' → Post' a g') : p.Safe M Post' g := by
  induction p generalizing g with
  | ret a => exact h a g hp
  | op o k ih => exact ⟨hp.1, fun x => ih x (hp.2 x)⟩

/-- **Sequences.** The second part is safe from every state in which the first one returns. -/
theorem Prog.Safe.bind {Q : α → γ → Prop} {Post : β → γ → Prop} {p : Prog S α} {f : α → Prog S β}
    {g : γ} (hp : p.Safe M Q g) (hf : ∀ a g', Q a g' → (f a).Safe M Post g') :
    (p >>= f).Safe M Post g := by
  induction p generalizing g with
  | ret a => exact hf a g hp
  | op o k ih => exact ⟨hp.1, fun x => ih x (hp.2 x)⟩

/-- An operation and what follows each answer. -/
theorem safe_perform_bind {Post : α → γ → Prop} {o : S.Op} {f : S.Ans o → Prog S α} {g : γ}
    (ho : M.allows g o) (hf : ∀ x, (f x).Safe M Post (M.next g ⟨o, x⟩)) :
    (perform o >>= f).Safe M Post g :=
  ⟨ho, hf⟩

/-- What has been performed stays in the history. -/
theorem Prog.Safe.keeps_history {allows : Trace S → S.Op → Prop} {Post : α → Trace S → Prop}
    {p : Prog S α} {past : Trace S} (hp : p.Safe (.history allows) Post past) :
    p.Safe (.history allows) (fun a past' => Post a past' ∧ past <+: past') past := by
  induction p generalizing past with
  | ret a => exact ⟨hp, List.prefix_rfl⟩
  | op o k ih =>
    refine ⟨hp.1, fun x => (ih x (hp.2 x)).mono fun a past' h => ⟨h.1, ?_⟩⟩
    exact (List.prefix_append past [⟨o, x⟩]).trans h.2

/-- What two histories say of a program. -/
theorem Prog.Safe.and_history {A B : Trace S → S.Op → Prop} {P Q : α → Trace S → Prop}
    {p : Prog S α} {past : Trace S} (hA : p.Safe (.history A) P past)
    (hB : p.Safe (.history B) Q past) :
    p.Safe (.history fun past o => A past o ∧ B past o) (fun a past => P a past ∧ Q a past)
      past := by
  induction p generalizing past with
  | ret a => exact ⟨hA, hB⟩
  | op o k ih => exact ⟨⟨hA.1, hB.1⟩, fun x => ih x (hA.2 x) (hB.2 x)⟩

/-- Operations that are allowed in the states of an invariant and keep it. -/
theorem Prog.Performs.safe {P : S.Op → Prop} {I : γ → Prop} {p : Prog S α} {g : γ}
    (hp : p.Performs P)
    (h : ∀ o g, P o → I g → M.allows g o ∧ ∀ x, I (M.next g ⟨o, x⟩)) (hg : I g) :
    p.Safe M (fun _ => I) g := by
  induction p generalizing g with
  | ret a => exact hg
  | op o k ih => exact ⟨(h o g hp.1 hg).1, fun x => ih x (hp.2 x) ((h o g hp.1 hg).2 x)⟩

/-- A monitor that allows everything, and a postcondition that all runs end with. -/
theorem Prog.Safe.of_exec {Post : α → γ → Prop} (hallows : ∀ g o, M.allows g o) :
    (p : Prog S α) → (g : γ) → (∀ t a, Exec p t (some a) → Post a (M.after g t)) → p.Safe M Post g
  | .ret a, _, h => h [] a (.ret a)
  | .op o k, g, h => ⟨hallows g o, fun x =>
      of_exec hallows (k x) (M.next g ⟨o, x⟩) fun t a ht => h (⟨o, x⟩ :: t) a (.op x ht)⟩

/-- **Simulation.** What one monitor allows, another one allows in related states. -/
theorem Prog.Safe.simulate {γ' : Type} {M' : Monitor S γ'} {Post : α → γ → Prop} {g : γ} {g' : γ'}
    (R : γ → γ' → Prop)
    (h : ∀ g g' o, R g g' → M.allows g o →
      M'.allows g' o ∧ ∀ x, R (M.next g ⟨o, x⟩) (M'.next g' ⟨o, x⟩))
    {p : Prog S α} (hp : p.Safe M Post g) (hR : R g g') :
    p.Safe M' (fun a g' => ∃ g, Post a g ∧ R g g') g' := by
  induction p generalizing g g' with
  | ret a => exact ⟨g, hp, hR⟩
  | op o k ih =>
    obtain ⟨hallows, hnext⟩ := h g g' o hR hp.1
    exact ⟨hallows, fun x => ih x (hp.2 x) (hnext x)⟩

/-! ### Safe programs that may fail -/

/-- A postcondition for values and one for errors and panics. -/
def Ends (Q : α → γ → Prop) (E : Stop ε → γ → Prop) : Except (Stop ε) α → γ → Prop
  | .ok a, g => Q a g
  | .error s, g => E s g

/-- From the state `g` on, `x` is safe, and ends in a value with `Q` or otherwise with `E`. -/
def Ensures (M : Monitor S γ) (g : γ) (x : Fallible ε (Prog S) α) (Q : α → γ → Prop)
    (E : Stop ε → γ → Prop) : Prop :=
  x.run.Safe M (Ends Q E) g

variable {Q Q' : α → γ → Prop} {E E' : Stop ε → γ → Prop} {g : γ}

theorem ensures_pure {a : α} (h : Q a g) : Ensures M g (pure a) Q E := h

theorem ensures_crash {message : String} (h : E (.panic message) g) :
    Ensures M g (crash message : Fallible ε (Prog S) α) Q E := h

theorem ensures_failIf {c : Bool} {e : ε} {Q : Unit → γ → Prop} (hok : c = false → Q () g)
    (herr : c = true → E (.error e) g) : Ensures M g (failIf c e) Q E := by
  cases c
  exacts [hok rfl, herr rfl]

theorem ensures_ofExcept {x : Except ε α} (hok : ∀ a, x = .ok a → Q a g)
    (herr : ∀ e, x = .error e → E (.error e) g) : Ensures M g (ofExcept x) Q E := by
  cases x
  exacts [herr _ rfl, hok _ rfl]

/-- One operation. -/
theorem ensures_perform {o : S.Op} {Q : S.Ans o → γ → Prop} (ho : M.allows g o)
    (hQ : ∀ x, Q x (M.next g ⟨o, x⟩)) : Ensures M g (Fallible.perform o) Q E :=
  ⟨ho, hQ⟩

theorem Ensures.mono {x : Fallible ε (Prog S) α} (hx : Ensures M g x Q E)
    (hQ : ∀ a g', Q a g' → Q' a g') (hE : ∀ s g', E s g' → E' s g') : Ensures M g x Q' E' :=
  Prog.Safe.mono hx fun
    | .ok a, g' => hQ a g'
    | .error s, g' => hE s g'

/-- **Sequences** of programs that may fail. -/
theorem Ensures.bind {x : Fallible ε (Prog S) α} {f : α → Fallible ε (Prog S) β}
    {R : β → γ → Prop} (hx : Ensures M g x Q E) (hf : ∀ a g', Q a g' → Ensures M g' (f a) R E) :
    Ensures M g (x >>= f) R E := by
  rw [Ensures, run_bind_eq]
  exact Prog.Safe.bind hx fun
    | .ok a, g', h => hf a g' h
    | .error _, _, h => h

/-- An operation and what follows each answer. -/
theorem ensures_perform_bind {o : S.Op} {f : S.Ans o → Fallible ε (Prog S) β} {R : β → γ → Prop}
    (ho : M.allows g o) (hf : ∀ x, Ensures M (M.next g ⟨o, x⟩) (f x) R E) :
    Ensures M g (Fallible.perform o >>= f) R E :=
  (ensures_perform (Q := fun x g' => g' = M.next g ⟨o, x⟩) ho fun _ => rfl).bind
    fun x _ h => h ▸ hf x

/-- The result of a function, and what follows its value. -/
theorem ensures_ofExcept_bind {x : Except ε α} {f : α → Fallible ε (Prog S) β} {R : β → γ → Prop}
    (hok : ∀ a, x = .ok a → Ensures M g (f a) R E) (herr : ∀ e, x = .error e → E (.error e) g) :
    Ensures M g (ofExcept x >>= f) R E := by
  cases x with
  | error e => exact herr e rfl
  | ok a => exact hok a rfl

/-- The result of a function, its error in another form, and what follows its value. -/
theorem ensures_mapError_bind {δ : Type} {x : Except δ α} {h : δ → ε}
    {f : α → Fallible ε (Prog S) β} {R : β → γ → Prop}
    (hok : ∀ a, x = .ok a → Ensures M g (f a) R E)
    (herr : ∀ e, x = .error e → E (.error (h e)) g) :
    Ensures M g (ofExcept (x.mapError h) >>= f) R E := by
  cases x with
  | error e => exact herr e rfl
  | ok a => exact hok a rfl

theorem ensures_annotate {x : Fallible ε (Prog S) α} {f : ε → ε}
    (hx : Ensures M g x Q fun s g' => E (s.map f) g') : Ensures M g (annotate f x) Q E := by
  rw [Ensures, run_annotate, map_eq_pure_bind]
  exact Prog.Safe.bind hx fun
    | .ok _, _, h => h
    | .error _, _, h => h

/-- The error of the first part is a value for what follows. -/
theorem ensures_attempt {x : Fallible ε (Prog S) α} {R : Except ε α → γ → Prop}
    (hx : Ensures M g x (fun a => R (.ok a)) fun
      | .error e, g' => R (.error e) g'
      | .panic message, g' => E (.panic message) g') : Ensures M g (attempt x) R E := by
  rw [Ensures, run_attempt, map_eq_pure_bind]
  exact Prog.Safe.bind hx fun
    | .ok _, _, h => h
    | .error (.error _), _, h => h
    | .error (.panic _), _, h => h

/-- Operations that are allowed in the states of an invariant and keep it. -/
theorem Prog.Performs.ensures {P : S.Op → Prop} {I : γ → Prop} {x : Fallible ε (Prog S) α}
    (hx : x.run.Performs P)
    (h : ∀ o g, P o → I g → M.allows g o ∧ ∀ y, I (M.next g ⟨o, y⟩)) (hg : I g) :
    Ensures M g x (fun _ => I) fun _ => I :=
  (hx.safe h hg).mono fun
    | .ok _, _, h => h
    | .error _, _, h => h

/-- **Loops.** An invariant of the loop's and the monitor's states. -/
theorem ensures_loop {σ : Type} {stuck : Fallible ε (Prog S) α}
    {body : σ → Fallible ε (Prog S) (σ ⊕ α)} (Inv : σ → γ → Prop)
    (hstuck : ∀ s g, Inv s g → Ensures M g stuck Q E)
    (hbody : ∀ s g, Inv s g → Ensures M g (body s) (fun r g' => Sum.elim (Inv · g') (Q · g') r) E) :
    (n : Nat) → (s : σ) → (g : γ) → Inv s g → Ensures M g (loop stuck body n s) Q E
  | 0, s, g, h => hstuck s g h
  | n + 1, s, g, h => (hbody s g h).bind fun
    | .inl s', g', h' => ensures_loop Inv hstuck hbody n s' g' h'
    | .inr _, _, h' => h'

/-- **Implementations.** A program that is safe for a monitor of its interface, run by an
implementation: every operation that the interface allows leads from related states to related
states. -/
theorem ensures_handle {T : Signature} {σ γ' : Type} {M' : Monitor T γ'}
    {h : (o : T.Op) → σ → Fallible ε (Prog S) (T.Ans o × σ)} {Post : α → γ' → Prop}
    (R : γ' → σ → γ → Prop)
    (hop : ∀ o g' s g, R g' s g → M'.allows g' o →
      Ensures M g (h o s) (fun p => R (M'.next g' ⟨o, p.1⟩) p.2) E) :
    (p : Prog T α) → (s : σ) → (g' : γ') → (g : γ) → p.Safe M' Post g' → R g' s g →
      Ensures M g (handle h p s) (fun p g => ∃ g', Post p.1 g' ∧ R g' p.2 g) E
  | .ret _, _, g', _, hp, hR => ⟨g', hp, hR⟩
  | .op o k, s, g', g, hp, hR => (hop o g' s g hR hp.1).bind fun p g₁ h₁ =>
    ensures_handle R hop (k p.1) p.2 (M'.next g' ⟨o, p.1⟩) g₁ (hp.2 p.1) h₁

/-! ### Runs of safe programs -/

/-- What is left of a safe program is safe from the state that its trace leads to. -/
theorem Leads.safe {Post : α → γ → Prop} {p q : Prog S α} {t : Trace S} {g : γ} (h : Leads p t q)
    (hp : p.Safe M Post g) : q.Safe M Post (M.after g t) := by
  induction h with
  | start => exact hp
  | snoc h x ih =>
    rw [Monitor.after_append]
    exact ih.2 x

/-- The operations of a program after `past` are on its runs, and so is its end. -/
theorem safe_exec (p : Prog S α) (past : Trace S) :
    p.Safe (.history fun past' o => ∃ t, past' = past ++ t ∧ ∀ x, Exec p (t ++ [⟨o, x⟩]) none)
      (fun a past' => ∃ t, past' = past ++ t ∧ Exec p t (some a)) past := by
  have hrest : ∀ (q : Prog S α) (t : Trace S), Leads p t q →
      q.Safe (.history fun past' o => ∃ t, past' = past ++ t ∧ ∀ x, Exec p (t ++ [⟨o, x⟩]) none)
        (fun a past' => ∃ t, past' = past ++ t ∧ Exec p t (some a)) (past ++ t) := by
    intro q
    induction q with
    | ret a =>
      intro t h
      exact ⟨t, rfl, by simpa using h.exec (.ret a)⟩
    | op o k ih =>
      intro t h
      refine ⟨⟨t, rfl, fun x => h.exec (.op x (.cut _))⟩, fun x => ?_⟩
      rw [Monitor.history_next, List.append_assoc]
      exact ih x _ (.snoc h x)
  simpa using hrest p [] .start

/-- **The operations of a run** are allowed when they come. -/
theorem Exec.allows {Post : α → γ → Prop} {p : Prog S α} {pre post : Trace S} {e : Event S}
    {r : Option α} {g : γ} (h : Exec p (pre ++ e :: post) r) (hp : p.Safe M Post g) :
    M.allows (M.after g pre) e.op := by
  induction pre generalizing p g with
  | nil => cases h with | op x h => exact hp.1
  | cons e' pre ih => cases h with | op x h => exact ih h (hp.2 x)

/-- **The end of a run** satisfies the postcondition. -/
theorem Exec.post {Post : α → γ → Prop} {p : Prog S α} {t : Trace S} {a : α} {g : γ}
    (h : Exec p t (some a)) (hp : p.Safe M Post g) : Post a (M.after g t) := by
  induction p generalizing t g with
  | ret b =>
    obtain ⟨rfl, rfl⟩ := exec_ret_some.mp h
    exact hp
  | op o k ih =>
    obtain ⟨x, t', rfl, h'⟩ := exec_op_some.mp h
    exact (ih x h' (hp.2 x) :)

end ScorecardInfra.Interaction
