import OmarchyYolo.Lib.Transition

/-!
# OmarchyYolo.Lib.Program — programs that call their environment

A program is a tree of calls: each call has a reply or raises, and the rest of
the program depends on which. What a call does to the world is a handler's
matter, and a handler may leave it open, so one program can be run against
several worlds.

* `Program`, `bind`, `attempt` — programs with exceptions;
* `system` — the small steps of a program, one call each;
* `Ensures` — what holds before every call and at the end of every run, with one
  rule for each way of composing programs;
* `Makes` — which calls a program can come to, and `Makes.keeps`: what all of
  these preserve, the program preserves;
* `Ensures.of_reachable` — the rules are sound for the small steps;
* `run` — the run of a program where every call has one answer;
* `embed` — a program over more calls;
* `Handler.traced` — a world that remembers the calls.
-/

namespace Calls

/-- Programs over calls `E` with replies `R`, which return an `α` or raise an `X`. -/
inductive Program (E : Type) (R : E → Type) (X : Type) (α : Type) : Type where
  | ret (a : α)
  | raise (x : X)
  | call (e : E) (next : Except X (R e) → Program E R X α)

variable {E : Type} {R : E → Type} {X : Type} {α β W : Type}

namespace Program

/-- One program after another; an exception ends both. -/
protected def bind (p : Program E R X α) (f : α → Program E R X β) : Program E R X β :=
  match p with
  | ret a => f a
  | raise x => raise x
  | call e next => call e fun r => (next r).bind f

instance : Monad (Program E R X) where
  pure := ret
  bind := Program.bind

/-- The program, with what it raises as a result. -/
def attempt : Program E R X α → Program E R X (Except X α)
  | ret a => ret (.ok a)
  | raise x => ret (.error x)
  | call e next => call e fun r => (next r).attempt

/-- An outcome as a program. -/
def ofExcept : Except X α → Program E R X α
  | .ok a => ret a
  | .error x => raise x

/-- `try: p except: handler`. -/
def tryCatch (p : Program E R X α) (handler : X → Program E R X α) : Program E R X α :=
  p.attempt >>= fun
    | .ok a => ret a
    | .error x => handler x

/-- A single call. -/
def perform (e : E) : Program E R X (R e) := call e ofExcept

/-- The program over more calls. -/
def embed {E' : Type} {R' : E' → Type} (f : E → E') :
    Program E (fun e => R' (f e)) X α → Program E' R' X α
  | ret a => ret a
  | raise x => raise x
  | call e next => call (f e) fun r => (next r).embed f

end Program

/-! ## Small steps -/

/-- What a call may reply, and how it may leave the world. -/
abbrev Handler (E : Type) (R : E → Type) (X W : Type) :=
  (e : E) → W → Except X (R e) → W → Prop

/-- A call with its reply. -/
abbrev Reply (E : Type) (R : E → Type) (X : Type) := (e : E) × Except X (R e)

variable (H : Handler E R X W)

/-- The runs of a program: a step is a call. -/
def system (p : Program E R X α) (start : W → Prop) :
    Lts.System (Program E R X α × W) (Reply E R X) where
  init c := c.1 = p ∧ start c.2
  step c l c' := ∃ next, c.1 = .call l.1 next ∧ H l.1 c.2 l.2 c'.2 ∧ c'.1 = next l.2

/-! ## Rules -/

/-- Before every call of every run of the program from the world, `Guard` holds;
at its end, `Post` does. -/
def Ensures (Guard : E → W → Prop) :
    Program E R X α → (Except X α → W → Prop) → W → Prop
  | .ret a, Post, w => Post (.ok a) w
  | .raise x, Post, w => Post (.error x) w
  | .call e next, Post, w => Guard e w ∧ ∀ r w', H e w r w' → Ensures Guard (next r) Post w'

variable {H} {Guard : E → W → Prop} {w : W}

@[simp] theorem ensures_ret {a : α} {Post : Except X α → W → Prop} :
    Ensures H Guard (.ret a) Post w ↔ Post (.ok a) w := Iff.rfl

@[simp] theorem ensures_pure {a : α} {Post : Except X α → W → Prop} :
    Ensures H Guard (pure a) Post w ↔ Post (.ok a) w := Iff.rfl

@[simp] theorem ensures_raise {x : X} {Post : Except X α → W → Prop} :
    Ensures H Guard (.raise x) Post w ↔ Post (.error x) w := Iff.rfl

theorem ensures_call {e : E} {next : Except X (R e) → Program E R X α}
    {Post : Except X α → W → Prop} :
    Ensures H Guard (.call e next) Post w ↔
      Guard e w ∧ ∀ r w', H e w r w' → Ensures H Guard (next r) Post w' := Iff.rfl

@[simp] theorem ensures_ofExcept {r : Except X α} {Post : Except X α → W → Prop} :
    Ensures H Guard (.ofExcept r) Post w ↔ Post r w := by
  cases r <;> exact Iff.rfl

@[simp] theorem ensures_perform {e : E} {Post : Except X (R e) → W → Prop} :
    Ensures H Guard (.perform e) Post w ↔
      Guard e w ∧ ∀ r w', H e w r w' → Post r w' := by
  simp only [Program.perform, ensures_call, ensures_ofExcept]

/-- What the first of two programs must establish for the second. -/
def After (Guard : E → W → Prop) (f : α → Program E R X β) (Post : Except X β → W → Prop) :
    Except X α → W → Prop
  | .ok a, w => Ensures H Guard (f a) Post w
  | .error x, w => Post (.error x) w

theorem ensures_bind {p : Program E R X α} {f : α → Program E R X β}
    {Post : Except X β → W → Prop} :
    Ensures H Guard (p >>= f) Post w ↔ Ensures H Guard p (After (H := H) Guard f Post) w := by
  induction p generalizing w with
  | ret a => exact Iff.rfl
  | raise x => exact Iff.rfl
  | call e next ih =>
    change (Guard e w ∧ ∀ r w', H e w r w' → Ensures H Guard (next r >>= f) Post w') ↔ _
    simp only [ih, ensures_call]

theorem ensures_attempt {p : Program E R X α} {Post : Except X (Except X α) → W → Prop} :
    Ensures H Guard p.attempt Post w ↔ Ensures H Guard p (fun r => Post (.ok r)) w := by
  induction p generalizing w with
  | ret a => exact Iff.rfl
  | raise x => exact Iff.rfl
  | call e next ih => simp only [Program.attempt, ensures_call, ih]

/-- What follows a program whatever its outcome. -/
theorem ensures_attempt_bind {p : Program E R X α} {f : Except X α → Program E R X β}
    {Post : Except X β → W → Prop} :
    Ensures H Guard (p.attempt >>= f) Post w ↔
      Ensures H Guard p (fun r w' => Ensures H Guard (f r) Post w') w := by
  rw [ensures_bind, ensures_attempt]
  exact Iff.rfl

theorem Ensures.mono {p : Program E R X α} {Post Post' : Except X α → W → Prop}
    {Guard' : E → W → Prop} (h : Ensures H Guard p Post w)
    (hguard : ∀ e w, Guard e w → Guard' e w) (hpost : ∀ r w, Post r w → Post' r w) :
    Ensures H Guard' p Post' w := by
  induction p generalizing w with
  | ret a => exact hpost _ w h
  | raise x => exact hpost _ w h
  | call e next ih =>
    obtain ⟨hg, hnext⟩ := h
    exact ⟨hguard e w hg, fun r w' hstep => ih r (hnext r w' hstep)⟩

/-- The same program, towards a weaker end. -/
theorem Ensures.imp {p : Program E R X α} {Post Post' : Except X α → W → Prop}
    (h : Ensures H Guard p Post w) (hpost : ∀ r w, Post r w → Post' r w) :
    Ensures H Guard p Post' w := h.mono (fun _ _ hg => hg) hpost

/-- Composition, with what the first program establishes stated on its own. -/
theorem Ensures.bind {p : Program E R X α} {f : α → Program E R X β}
    {Mid : Except X α → W → Prop} {Post : Except X β → W → Prop} (h : Ensures H Guard p Mid w)
    (hok : ∀ a w, Mid (.ok a) w → Ensures H Guard (f a) Post w)
    (herror : ∀ x w, Mid (.error x) w → Post (.error x) w) :
    Ensures H Guard (p >>= f) Post w := by
  rw [ensures_bind]
  refine h.imp fun r w hmid => ?_
  cases r with
  | ok a => exact hok a w hmid
  | error x => exact herror x w hmid

/-- Handling of exceptions, with what the program establishes stated on its own. -/
theorem Ensures.tryCatch {p : Program E R X α} {handler : X → Program E R X α}
    {Mid Post : Except X α → W → Prop} (h : Ensures H Guard p Mid w)
    (hok : ∀ a w, Mid (.ok a) w → Post (.ok a) w)
    (herror : ∀ x w, Mid (.error x) w → Ensures H Guard (handler x) Post w) :
    Ensures H Guard (p.tryCatch handler) Post w := by
  rw [Program.tryCatch, ensures_bind, ensures_attempt]
  refine h.imp fun r w hmid => ?_
  cases r with
  | ok a => exact hok a w hmid
  | error x => exact herror x w hmid

/-- Two ends of the same runs. -/
theorem Ensures.and {p : Program E R X α} {Post Post' : Except X α → W → Prop}
    {Guard' : E → W → Prop} (h : Ensures H Guard p Post w) (h' : Ensures H Guard' p Post' w) :
    Ensures H Guard p (fun r w' => Post r w' ∧ Post' r w') w := by
  induction p generalizing w with
  | ret a => exact ⟨h, h'⟩
  | raise x => exact ⟨h, h'⟩
  | call e next ih =>
    obtain ⟨hg, hnext⟩ := h
    exact ⟨hg, fun r w' hstep => ih r (hnext r w' hstep) (h'.2 r w' hstep)⟩

/-- What holds before every call and at the end holds now. -/
theorem Ensures.now {p : Program E R X α} {Post : Except X α → W → Prop} {Inv : W → Prop}
    (h : Ensures H Guard p Post w) (hguard : ∀ e w, Guard e w → Inv w)
    (hpost : ∀ r w, Post r w → Inv w) : Inv w := by
  cases p with
  | ret a => exact hpost _ w h
  | raise x => exact hpost _ w h
  | call e next => exact hguard e w h.1

/-- An embedded program, by what its calls do where it is embedded. -/
theorem ensures_embed {E' : Type} {R' : E' → Type} {H' : Handler E' R' X W} {f : E → E'}
    {Guard' : E' → W → Prop} {p : Program E (fun e => R' (f e)) X α}
    {Post : Except X α → W → Prop} :
    Ensures H' Guard' (p.embed f) Post w ↔
      Ensures (fun e => H' (f e)) (fun e => Guard' (f e)) p Post w := by
  induction p generalizing w with
  | ret a => exact Iff.rfl
  | raise x => exact Iff.rfl
  | call e next ih => simp only [Program.embed, ensures_call, ih]

/-! ## Results -/

/-- An end about which only a returned value says something. -/
def Returned (Post : α → W → Prop) : Except X α → W → Prop
  | .ok a, w => Post a w
  | .error _, _ => True

@[simp] theorem returned_ok {Post : α → W → Prop} {a : α} :
    Returned (X := X) Post (.ok a) w ↔ Post a w := Iff.rfl

/-- Where nothing is to be established, nothing has to be. -/
theorem ensures_trivial {p : Program E R X α} :
    Ensures H (fun _ _ => True) p (Returned fun _ _ => True) w := by
  induction p generalizing w with
  | ret a => trivial
  | raise x => trivial
  | call e next ih => exact ⟨trivial, fun r w' _ => ih r⟩

@[simp] theorem returned_error {Post : α → W → Prop} {x : X} : Returned Post (.error x) w :=
  trivial

/-- Composition, where the second program has to say nothing about exceptions. -/
theorem Ensures.andThen {p : Program E R X α} {f : α → Program E R X β} {Mid : α → W → Prop}
    {Post : β → W → Prop} (h : Ensures H Guard p (Returned Mid) w)
    (hok : ∀ a w, Mid a w → Ensures H Guard (f a) (Returned Post) w) :
    Ensures H Guard (p >>= f) (Returned Post) w :=
  h.bind hok fun _ _ _ => trivial

theorem Ensures.ite {c : Prop} [Decidable c] {p q : Program E R X α}
    {Post : Except X α → W → Prop} (hp : c → Ensures H Guard p Post w)
    (hq : ¬c → Ensures H Guard q Post w) : Ensures H Guard (if c then p else q) Post w := by
  split
  · exact hp ‹c›
  · exact hq ‹¬c›

/-- Two branches with the same rest, with what both establish stated on its own. -/
theorem Ensures.joinBoth {c : Prop} [Decidable c] {p q : Program E R X α}
    {f : α → Program E R X β} {Mid : Except X α → W → Prop} {Post : Except X β → W → Prop}
    (hp : c → Ensures H Guard p Mid w) (hq : ¬c → Ensures H Guard q Mid w)
    (hok : ∀ a w, Mid (.ok a) w → Ensures H Guard (f a) Post w)
    (herror : ∀ x w, Mid (.error x) w → Post (.error x) w) :
    Ensures H Guard (if c then p >>= f else q >>= f) Post w := by
  split
  · exact (hp ‹c›).bind hok herror
  · exact (hq ‹¬c›).bind hok herror

/-- Two branches with the same rest. -/
theorem Ensures.join {c : Prop} [Decidable c] {p q : Program E R X α} {f : α → Program E R X β}
    {Mid : α → W → Prop} {Post : β → W → Prop}
    (hp : c → Ensures H Guard p (Returned Mid) w) (hq : ¬c → Ensures H Guard q (Returned Mid) w)
    (hok : ∀ a w, Mid a w → Ensures H Guard (f a) (Returned Post) w) :
    Ensures H Guard (if c then p >>= f else q >>= f) (Returned Post) w :=
  Ensures.joinBoth hp hq hok fun _ _ _ => trivial

/-! ## The calls of a program -/

/-- Every call that the program can come to, whatever the replies, is one of `Q`. -/
def Program.Makes (Q : E → Prop) : Program E R X α → Prop
  | .ret _ => True
  | .raise _ => True
  | .call e next => Q e ∧ ∀ r, (next r).Makes Q

section Makes

variable {Q Q' : E → Prop}

@[simp] theorem makes_ret {a : α} : (Program.ret a : Program E R X α).Makes Q := trivial

@[simp] theorem makes_pure {a : α} : (pure a : Program E R X α).Makes Q := trivial

@[simp] theorem makes_raise {x : X} : (Program.raise x : Program E R X α).Makes Q := trivial

theorem makes_ofExcept {r : Except X α} : (Program.ofExcept r : Program E R X α).Makes Q := by
  cases r <;> trivial

theorem makes_perform {e : E} (h : Q e) : (Program.perform e : Program E R X (R e)).Makes Q :=
  ⟨h, fun _ => makes_ofExcept⟩

theorem Program.Makes.bind {p : Program E R X α} {f : α → Program E R X β} (h : p.Makes Q)
    (hf : ∀ a, (f a).Makes Q) : (p >>= f).Makes Q := by
  induction p with
  | ret a => exact hf a
  | raise x => trivial
  | call e next ih => exact ⟨h.1, fun r => ih r (h.2 r)⟩

theorem makes_ite {c : Prop} [Decidable c] {p q : Program E R X α} (hp : p.Makes Q)
    (hq : q.Makes Q) : (if c then p else q).Makes Q := by
  split
  · exact hp
  · exact hq

/-- Two branches with the same rest. -/
theorem Program.Makes.join {c : Prop} [Decidable c] {p q : Program E R X α}
    {f : α → Program E R X β} (hp : p.Makes Q) (hq : q.Makes Q) (hf : ∀ a, (f a).Makes Q) :
    (if c then p >>= f else q >>= f).Makes Q :=
  makes_ite (hp.bind hf) (hq.bind hf)

theorem Program.Makes.attempt {p : Program E R X α} (h : p.Makes Q) : p.attempt.Makes Q := by
  induction p with
  | ret a => trivial
  | raise x => trivial
  | call e next ih => exact ⟨h.1, fun r => ih r (h.2 r)⟩

theorem Program.Makes.tryCatch {p : Program E R X α} {handler : X → Program E R X α}
    (h : p.Makes Q) (hhandler : ∀ x, (handler x).Makes Q) : (p.tryCatch handler).Makes Q := by
  refine h.attempt.bind fun r => ?_
  cases r with
  | ok a => trivial
  | error x => exact hhandler x

theorem Program.Makes.mono {p : Program E R X α} (h : p.Makes Q) (hQ : ∀ e, Q e → Q' e) :
    p.Makes Q' := by
  induction p with
  | ret a => trivial
  | raise x => trivial
  | call e next ih => exact ⟨hQ e h.1, fun r => ih r (h.2 r)⟩

theorem Program.Makes.embed {E' : Type} {R' : E' → Type} {f : E → E'} {Q' : E' → Prop}
    {p : Program E (fun e => R' (f e)) X α} (h : p.Makes fun e => Q' (f e)) :
    (p.embed f).Makes Q' := by
  induction p with
  | ret a => trivial
  | raise x => trivial
  | call e next ih => exact ⟨h.1, fun r => ih r (h.2 r)⟩

/-- A program makes the calls of every set that has all. -/
theorem makes_of_forall (h : ∀ e, Q e) (p : Program E R X α) : p.Makes Q := by
  induction p with
  | ret a => trivial
  | raise x => trivial
  | call e next ih => exact ⟨h e, ih⟩

/-- What every call of a program preserves, the program does. -/
theorem Program.Makes.keeps {p : Program E R X α} (h : p.Makes Q) {Inv : W → Prop}
    (hguard : ∀ e w, Q e → Inv w → Guard e w)
    (hstep : ∀ e w r w', Q e → Inv w → H e w r w' → Inv w') (hw : Inv w) :
    Ensures H Guard p (fun _ w' => Inv w') w := by
  induction p generalizing w with
  | ret a => exact hw
  | raise x => exact hw
  | call e next ih =>
    exact ⟨hguard e w h.1 hw, fun r w' hr => ih r (h.2 r) (hstep e w r w' h.1 hw hr)⟩

end Makes

/-! ## Soundness -/

/-- What a program ensures, the rest of it ensures at every moment of a run. -/
theorem Ensures.steps {p p' : Program E R X α} {Post : Except X α → W → Prop} {w' : W}
    {start : W → Prop} {q : Program E R X α} (h : Ensures H Guard p Post w)
    (hsteps : (system H q start).Steps (p, w) (p', w')) : Ensures H Guard p' Post w' := by
  have hall : ∀ c, (system H q start).Steps (p, w) c → Ensures H Guard c.1 Post c.2 := by
    intro c hc
    induction hc with
    | refl => exact h
    | tail _ hlast ih =>
      obtain ⟨l, next, hcall, hstep, hnext⟩ := hlast
      rw [hcall] at ih
      rw [hnext]
      exact ih.2 l.2 _ hstep
  exact hall _ hsteps

theorem Ensures.of_reachable {p : Program E R X α} {Post : Except X α → W → Prop}
    {start : W → Prop} (h : ∀ w, start w → Ensures H Guard p Post w)
    {c : Program E R X α × W} (hc : (system H p start).Reachable c) :
    Ensures H Guard c.1 Post c.2 := by
  obtain ⟨c₀, ⟨hp, hstart⟩, hsteps⟩ := hc
  have hfirst := h c₀.2 hstart
  rw [← hp] at hfirst
  exact hfirst.steps hsteps

/-! ## Answers -/

/-- The run of a program in a world that has one answer to every call. -/
def run (answer : (e : E) → W → Except X (R e) × W) : Program E R X α → W → Except X α × W
  | .ret a, w => (.ok a, w)
  | .raise x, w => (.error x, w)
  | .call e next, w => run answer (next (answer e w).1) (answer e w).2

section Run

variable {answer : (e : E) → W → Except X (R e) × W}

@[simp] theorem run_pure {a : α} : run answer (pure a) w = (.ok a, w) := rfl

@[simp] theorem run_ret {a : α} : run answer (.ret a) w = (.ok a, w) := rfl

@[simp] theorem run_raise {x : X} : run answer (.raise x : Program E R X α) w = (.error x, w) := rfl

@[simp] theorem run_ofExcept {r : Except X α} : run answer (.ofExcept r) w = (r, w) := by
  cases r <;> rfl

@[simp] theorem run_perform {e : E} : run answer (.perform e) w = answer e w := by
  simp only [Program.perform, run, run_ofExcept]

/-- What follows the run of the first of two programs. -/
def runNext (answer : (e : E) → W → Except X (R e) × W) (f : α → Program E R X β) :
    Except X α × W → Except X β × W
  | (.ok a, w) => run answer (f a) w
  | (.error x, w) => (.error x, w)

@[simp] theorem runNext_ok {f : α → Program E R X β} {a : α} :
    runNext answer f (.ok a, w) = run answer (f a) w := rfl

@[simp] theorem runNext_error {f : α → Program E R X β} {x : X} :
    runNext answer f (.error x, w) = (.error x, w) := rfl

theorem run_bind {p : Program E R X α} {f : α → Program E R X β} :
    run answer (p >>= f) w = runNext answer f (run answer p w) := by
  induction p generalizing w with
  | ret a => rfl
  | raise x => rfl
  | call e next ih => exact ih _

theorem run_attempt {p : Program E R X α} :
    run answer p.attempt w = (.ok (run answer p w).1, (run answer p w).2) := by
  induction p generalizing w with
  | ret a => rfl
  | raise x => rfl
  | call e next ih => exact ih _

/-- A run that returns, and the run of the rest of the program. -/
theorem run_then {p : Program E R X α} {f : α → Program E R X β} {a : α} {w' : W}
    {result : Except X β × W} (h : run answer p w = (.ok a, w'))
    (hrest : run answer (f a) w' = result) : run answer (p >>= f) w = result := by
  rw [run_bind, h, runNext_ok]
  exact hrest

/-- A run that raises, before the rest of the program. -/
theorem run_bind_error {p : Program E R X α} {f : α → Program E R X β} {x : X} {w' : W}
    (h : run answer p w = (.error x, w')) : run answer (p >>= f) w = (.error x, w') := by
  rw [run_bind, h, runNext_error]

theorem run_attempt_eq {p : Program E R X α} {r : Except X α} {w' : W}
    (h : run answer p w = (r, w')) : run answer p.attempt w = (.ok r, w') := by
  rw [run_attempt, h]

/-- What a program ensures, its run comes to where the answers are among those of the handler. -/
theorem Ensures.of_run {Guard : E → W → Prop} {p : Program E R X α} {Post : Except X α → W → Prop}
    (hanswer : ∀ e w, H e w (answer e w).1 (answer e w).2) (h : Ensures H Guard p Post w) :
    Post (run answer p w).1 (run answer p w).2 := by
  induction p generalizing w with
  | ret a => exact h
  | raise x => exact h
  | call e next ih => exact ih _ (h.2 _ _ (hanswer e w))

theorem run_ite_pos {c : Prop} [Decidable c] {p q : Program E R X α} (hc : c) :
    run answer (if c then p else q) w = run answer p w := by rw [if_pos hc]

theorem run_ite_neg {c : Prop} [Decidable c] {p q : Program E R X α} (hc : ¬c) :
    run answer (if c then p else q) w = run answer q w := by rw [if_neg hc]

end Run

/-! ## Traces -/

/-- The handler, in a world that remembers the calls so far with their replies. -/
def Handler.traced (H : Handler E R X W) : Handler E R X (W × List (Reply E R X)) :=
  fun e w r w' => H e w.1 r w'.1 ∧ w'.2 = w.2 ++ [⟨e, r⟩]

/-- The same, in a world that remembers the calls. -/
theorem Ensures.traced_run {H : Handler E R X W} {answer : (e : E) → W → Except X (R e) × W}
    {Guard : E → W × List (Reply E R X) → Prop} {p : Program E R X α}
    {Post : Except X α → W × List (Reply E R X) → Prop}
    (hanswer : ∀ e w, H e w (answer e w).1 (answer e w).2) {w : W} {calls : List (Reply E R X)}
    (h : Ensures H.traced Guard p Post (w, calls)) :
    ∃ calls', Post (run answer p w).1 ((run answer p w).2, calls') := by
  induction p generalizing w calls with
  | ret a => exact ⟨calls, h⟩
  | raise x => exact ⟨calls, h⟩
  | call e next ih =>
    exact ih (answer e w).1 (h.2 (answer e w).1
      ((answer e w).2, calls ++ [⟨e, (answer e w).1⟩]) ⟨hanswer e w, rfl⟩)

end Calls
