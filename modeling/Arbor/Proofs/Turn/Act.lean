import Arbor.Turn.World

/-! # Running the parts of a turn

`run_bind` takes a turn apart into its parts, and one lemma for each part says what it gives and
what desk it leaves. -/

namespace Arbor.Act

variable {α β : Type}

theorem run_bind (x : Act α) (f : α → Act β) (d : Desk) :
    (x >>= f).run d = match x.run d with
      | (.ok a, d') => (f a).run d'
      | (.error e, d') => (.error e, d') := by
  have h : (x >>= f).run d = (match (x.run d : Except AgentError α × Desk).1 with
      | .ok a => (f a).run (x.run d : Except AgentError α × Desk).2
      | .error e => pure (.error e, (x.run d : Except AgentError α × Desk).2)) := by
    change ExceptT.bindCont f (x.run d : Except AgentError α × Desk).1
      (x.run d : Except AgentError α × Desk).2 = _
    cases (x.run d : Except AgentError α × Desk).1 <;> rfl
  rw [h]
  cases hx : (x.run d : Except AgentError α × Desk) with
  | mk r d' => cases r <;> rfl

theorem run_pure (a : α) (d : Desk) : (pure a : Act α).run d = (.ok a, d) := rfl

theorem run_get (d : Desk) : (get : Act Desk).run d = (.ok d, d) := rfl

theorem run_lift (x : Except AgentError α) (d : Desk) : (liftM x : Act α).run d = (x, d) := rfl

theorem run_modifyAgent (f : Agent → Agent) (d : Desk) :
    (modifyAgent f).run d = (.ok (), { d with agent := f d.agent }) := rfl

theorem run_modifyWorld (f : World → World) (d : Desk) :
    (modifyWorld f).run d = (.ok (), { d with world := f d.world }) := rfl

theorem run_touch (d : Desk) :
    touch.run d = (.ok (), { d with agent := d.agent.touch d.world.now }) := rfl

theorem run_freshAgent (d : Desk) :
    freshAgent.run d = (.ok ⟨d.world.nextNumber⟩,
      { d with world := { d.world with nextNumber := d.world.nextNumber + 1 } }) := rfl

theorem run_freshTask (text : String) (d : Desk) :
    (freshTask text).run d = (.ok ⟨⟨d.world.nextNumber⟩, text⟩,
      { d with world := { d.world with nextNumber := d.world.nextNumber + 1 } }) := rfl

theorem run_onFiles (action path : String) (f : FileSystem → Except OsError FileSystem) (d : Desk) :
    (onFiles action path f).run d = match f d.world.site.files with
      | .ok files => (.ok (), { d with world := d.world.withFiles files })
      | .error e => (.error (.io action path (.os e)), d) := by
  rw [onFiles, run_bind, run_get]
  cases h : f d.world.site.files <;> simp only [h] <;> rfl

theorem run_execute (command : String) (cwd : Path) (d : Desk) :
    (execute command cwd).run d =
      (.ok (d.world.execute command cwd).1, { d with world := (d.world.execute command cwd).2 }) :=
  rfl

theorem run_ask (question : String) (d : Desk) :
    (ask question).run d = ((match (d.world.ask question).1 with
      | .ok reply => .ok reply
      | .error text => .error (.human text)), { d with world := (d.world.ask question).2 }) := by
  rw [ask, run_bind, run_get]
  simp only [run_bind, run_modifyWorld]
  cases (d.world.ask question).1 <;> rfl

end Arbor.Act
