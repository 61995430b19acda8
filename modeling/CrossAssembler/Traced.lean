namespace CrossAssembler

structure Traced (τ ε α : Type) where
  log : List τ
  result : Except ε α

namespace Traced

variable {τ τ' ε ε' α β : Type}

def pure (a : α) : Traced τ ε α :=
  ⟨[], .ok a⟩

def bind (x : Traced τ ε α) (f : α → Traced τ ε β) : Traced τ ε β :=
  match x.result with
  | .ok a =>
      let y := f a
      ⟨x.log ++ y.log, y.result⟩
  | .error e => ⟨x.log, .error e⟩

instance : Monad (Traced τ ε) where
  pure := Traced.pure
  bind := Traced.bind

def tell (e : τ) : Traced τ ε Unit :=
  ⟨[e], .ok ()⟩

def ofExcept (r : Except ε α) : Traced τ ε α :=
  ⟨[], r⟩

def mapError (f : ε → ε') (x : Traced τ ε α) : Traced τ ε' α :=
  ⟨x.log, x.result.mapError f⟩

def mapLog (f : τ → τ') (x : Traced τ ε α) : Traced τ' ε α :=
  ⟨x.log.map f, x.result⟩

@[simp]
theorem result_pure (a : α) : (Pure.pure a : Traced τ ε α).result = .ok a := rfl

@[simp]
theorem result_bind (x : Traced τ ε α) (f : α → Traced τ ε β) :
    (x >>= f).result = x.result >>= fun a => (f a).result := by
  change (Traced.bind x f).result = _
  unfold Traced.bind
  cases x.result <;> rfl

@[simp]
theorem result_tell (e : τ) : (tell e : Traced τ ε Unit).result = .ok () := rfl

@[simp]
theorem result_ofExcept (r : Except ε α) : (ofExcept r : Traced τ ε α).result = r := rfl

@[simp]
theorem result_mapError (f : ε → ε') (x : Traced τ ε α) :
    (x.mapError f).result = x.result.mapError f := rfl

@[simp]
theorem result_mapLog (f : τ → τ') (x : Traced τ ε α) : (x.mapLog f).result = x.result := rfl

end Traced

end CrossAssembler
