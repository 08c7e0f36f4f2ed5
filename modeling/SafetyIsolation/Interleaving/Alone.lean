import SafetyIsolation.Interleaving.Program

/-! Programs run alone, against every choice an environment may make.
`Always` speaks about all runs at once, so a loop is verified by induction over the code and
not over the list of choices.
-/

namespace SafetyIsolation.Interleaving.Prog

variable {σ Choice Op : Type} {Res : Op → Type} {α β : Type}

/-- Whatever admitted choices the environment makes, the program completes with `post`. -/
def Always (exec : Choice → (op : Op) → σ → Outcome (Res op) σ) (admits : Choice → Prop)
    : Prog Op Res α → (α → σ → Prop) → σ → Prop
  | .ret value, post, s => post value s
  | .act op next, post, s =>
      ∀ choice, admits choice
        → ∃ result s', exec choice op s = .done result s'
            ∧ (next result).Always exec admits post s'

variable {exec : Choice → (op : Op) → σ → Outcome (Res op) σ} {admits : Choice → Prop}

theorem Always.imp {prog : Prog Op Res α} {post weaker : α → σ → Prop} {s : σ}
    (h : prog.Always exec admits post s) (implies : ∀ value s, post value s → weaker value s)
    : prog.Always exec admits weaker s := by
  induction prog generalizing s with
  | ret value => exact implies value s h
  | act op next ih =>
      intro choice admitted
      obtain ⟨result, s', executed, rest⟩ := h choice admitted
      exact ⟨result, s', executed, ih result rest⟩

/-- A composed program meets exactly what its parts meet one after the other, by program
induction.
-/
theorem always_bind {prog : Prog Op Res α} {next : α → Prog Op Res β} {post : β → σ → Prop}
    {s : σ}
    : (prog.bind next).Always exec admits post s
      ↔ prog.Always exec admits (fun value s => (next value).Always exec admits post s) s := by
  induction prog generalizing s with
  | ret value => exact Iff.rfl
  | act op rest ih =>
      constructor
      · intro h choice admitted
        obtain ⟨result, s', executed, later⟩ := h choice admitted
        exact ⟨result, s', executed, (ih result).mp later⟩
      · intro h choice admitted
        obtain ⟨result, s', executed, later⟩ := h choice admitted
        exact ⟨result, s', executed, (ih result).mpr later⟩

/-- Every run with admitted choices completes with the verified postcondition, by program
induction.
-/
theorem Always.run [Inhabited Choice] {prog : Prog Op Res α} {post : α → σ → Prop} {s : σ}
    (h : prog.Always exec admits post s) {choices : List Choice}
    (listed : ∀ choice ∈ choices, admits choice) (unlisted : admits default)
    : ∃ value s', prog.runAlone exec choices s = .done value s' ∧ post value s' := by
  induction prog generalizing s choices with
  | ret value => exact ⟨value, s, rfl, h⟩
  | act op next ih =>
      have admitted : admits (choices.headD default) := by
        cases choices with
        | nil => exact unlisted
        | cons choice rest => exact listed choice List.mem_cons_self
      obtain ⟨result, s', executed, rest⟩ := h _ admitted
      have later := ih result rest
        (fun choice member => listed choice (List.mem_of_mem_tail member))
      simpa only [runAlone, executed] using later

/-- A program whose result is dropped ends as it would, by program induction. -/
theorem runAlone_bind_ret [Inhabited Choice] (prog : Prog Op Res α) (value : β)
    (choices : List Choice) (s : σ)
    : (prog.bind (fun _ => .ret value)).runAlone exec choices s
      = match prog.runAlone exec choices s with
        | .done _ s' => .done value s'
        | .wait => .wait
        | .fault => .fault := by
  induction prog generalizing choices s with
  | ret _ => rfl
  | act op next ih =>
      simp only [act_bind, runAlone]
      cases exec (choices.headD default) op s with
      | done result s' => exact ih result choices.tail s'
      | wait => rfl
      | fault => rfl

variable {ℓ : Type}

/-- `Always`, for code that also works on a state of its own. -/
def Ensures (exec : Choice → (op : Op) → σ → Outcome (Res op) σ) (admits : Choice → Prop)
    (code : StateT ℓ (Prog Op Res) α) (post : α → ℓ → σ → Prop) (own : ℓ) (s : σ)
    : Prop :=
  (code.run own).Always exec admits (fun out s => post out.1 out.2 s) s

@[simp] theorem ensures_pure {value : α} {post : α → ℓ → σ → Prop} {own : ℓ} {s : σ}
    : Ensures exec admits (pure value) post own s ↔ post value own s := Iff.rfl

@[simp] theorem ensures_bind {code : StateT ℓ (Prog Op Res) α}
    {next : α → StateT ℓ (Prog Op Res) β} {post : β → ℓ → σ → Prop} {own : ℓ} {s : σ}
    : Ensures exec admits (code >>= next) post own s
      ↔ Ensures exec admits code
          (fun value own s => Ensures exec admits (next value) post own s) own s :=
  always_bind

@[simp] theorem ensures_get {post : ℓ → ℓ → σ → Prop} {own : ℓ} {s : σ}
    : Ensures exec admits (get : StateT ℓ (Prog Op Res) ℓ) post own s ↔ post own own s :=
  Iff.rfl

@[simp] theorem ensures_modify {f : ℓ → ℓ} {post : PUnit → ℓ → σ → Prop} {own : ℓ} {s : σ}
    : Ensures exec admits (modify f : StateT ℓ (Prog Op Res) PUnit) post own s
      ↔ post ⟨⟩ (f own) s := Iff.rfl

@[simp] theorem ensures_perform {op : Op} {post : Res op → ℓ → σ → Prop} {own : ℓ} {s : σ}
    : Ensures exec admits (StateT.lift (perform op)) post own s
      ↔ ∀ choice, admits choice
          → ∃ result s', exec choice op s = .done result s' ∧ post result own s' := Iff.rfl

theorem Ensures.imp {code : StateT ℓ (Prog Op Res) α} {post weaker : α → ℓ → σ → Prop}
    {own : ℓ} {s : σ} (h : Ensures exec admits code post own s)
    (implies : ∀ value own s, post value own s → weaker value own s)
    : Ensures exec admits code weaker own s :=
  Always.imp h (fun out s => implies out.1 out.2 s)

/-- Every run with admitted choices completes with the verified postcondition. -/
theorem Ensures.run [Inhabited Choice] {code : StateT ℓ (Prog Op Res) α}
    {post : α → ℓ → σ → Prop} {own : ℓ} {s : σ} (h : Ensures exec admits code post own s)
    {choices : List Choice} (listed : ∀ choice ∈ choices, admits choice)
    (unlisted : admits default)
    : ∃ value own' s',
        (code.run own).runAlone exec choices s = .done (value, own') s'
        ∧ post value own' s' := by
  obtain ⟨⟨value, own'⟩, s', ran, met⟩ := Always.run h listed unlisted
  exact ⟨value, own', s', ran, met⟩

/-- A program of operations that complete and keep a property does so itself, by program
induction.
-/
theorem Always.of_all {prog : Prog Op Res α} {inv : σ → Prop} {s : σ}
    (ops : prog.All (fun op => ∀ choice s, admits choice → inv s
      → ∃ result s', exec choice op s = .done result s' ∧ inv s'))
    (initially : inv s)
    : prog.Always exec admits (fun _ s => inv s) s := by
  induction prog generalizing s with
  | ret value => exact initially
  | act op next ih =>
      intro choice admitted
      obtain ⟨result, s', executed, kept⟩ := ops.1 choice s admitted initially
      exact ⟨result, s', executed, ih result (ops.2 result) kept⟩

/-- Where no operation waits or traps, every program completes, by program induction. -/
theorem Always.completes {prog : Prog Op Res α}
    (total : ∀ choice op s, ∃ result s', exec choice op s = .done result s') (s : σ)
    : prog.Always exec admits (fun _ _ => True) s := by
  induction prog generalizing s with
  | ret value => trivial
  | act op next ih =>
      intro choice _
      obtain ⟨result, s', executed⟩ := total choice op s
      exact ⟨result, s', executed, ih result s'⟩

/-- What holds in every environment holds in a particular one, by program induction. -/
theorem Always.specialize {κ : Type} {exec' : κ → (op : Op) → σ → Outcome (Res op) σ}
    {admits' : κ → Prop} {prog : Prog Op Res α} {post : α → σ → Prop} {s : σ}
    (h : prog.Always exec admits post s)
    (allowed : ∀ choice op s, admits' choice
      → ∃ choice', admits choice' ∧ exec' choice op s = exec choice' op s)
    : prog.Always exec' admits' post s := by
  induction prog generalizing s with
  | ret value => exact h
  | act op next ih =>
      intro choice admitted
      obtain ⟨choice', admitted', same⟩ := allowed choice op s admitted
      obtain ⟨result, s', executed, rest⟩ := h choice' admitted'
      exact ⟨result, s', same.trans executed, ih result rest⟩

theorem Ensures.specialize {κ : Type} {exec' : κ → (op : Op) → σ → Outcome (Res op) σ}
    {admits' : κ → Prop} {code : StateT ℓ (Prog Op Res) α} {post : α → ℓ → σ → Prop}
    {own : ℓ} {s : σ} (h : Ensures exec admits code post own s)
    (allowed : ∀ choice op s, admits' choice
      → ∃ choice', admits choice' ∧ exec' choice op s = exec choice' op s)
    : Ensures exec' admits' code post own s :=
  Always.specialize h allowed

/-- Whatever the code returns, it leaves the property as it found it. -/
def Keeps (exec : Choice → (op : Op) → σ → Outcome (Res op) σ) (admits : Choice → Prop)
    (inv : ℓ → σ → Prop) (code : StateT ℓ (Prog Op Res) α)
    : Prop :=
  ∀ own s, inv own s → Ensures exec admits code (fun _ own s => inv own s) own s

theorem Keeps.pure {inv : ℓ → σ → Prop} (value : α)
    : Keeps exec admits inv (Pure.pure value : StateT ℓ (Prog Op Res) α) :=
  fun _ _ h => h

theorem Keeps.bind {inv : ℓ → σ → Prop} {code : StateT ℓ (Prog Op Res) α}
    {next : α → StateT ℓ (Prog Op Res) β} (first : Keeps exec admits inv code)
    (rest : ∀ value, Keeps exec admits inv (next value))
    : Keeps exec admits inv (code >>= next) :=
  fun own s h => ensures_bind.mpr ((first own s h).imp rest)

/-- An observer takes note of every operation and its result, which may be any; an operation it
has no note for is one the program must not perform.
-/
def observed (note : (op : Op) → Res op → σ → Option σ) (results : (op : Op) → Res op)
    (op : Op) (s : σ)
    : Outcome (Res op) σ :=
  match note op (results op) s with
  | some s' => .done (results op) s'
  | none => .fault

/-- What an observer can rely on, one operation at a time. -/
theorem always_observed_act [DecidableEq Op] [∀ op, Nonempty (Res op)]
    {note : (op : Op) → Res op → σ → Option σ} {op : Op} {next : Res op → Prog Op Res α}
    {post : α → σ → Prop} {s : σ}
    : (act op next).Always (observed note) (fun _ => True) post s
      ↔ ∀ result, ∃ s', note op result s = some s'
          ∧ (next result).Always (observed note) (fun _ => True) post s' := by
  constructor
  · intro h result
    obtain ⟨found, s', noted, rest⟩ :=
      h (Function.update (fun _ => Classical.ofNonempty) op result) trivial
    unfold observed at noted
    rw [Function.update_self] at noted
    split at noted
    · rename_i after isNote
      cases noted
      exact ⟨_, isNote, rest⟩
    · cases noted
  · intro h results _
    obtain ⟨s', noted, rest⟩ := h (results op)
    exact ⟨results op, s', by rw [observed, noted], rest⟩

end SafetyIsolation.Interleaving.Prog
