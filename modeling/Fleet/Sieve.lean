/-! The items of a list that pass a test with effects, tested in order. -/

set_option autoImplicit false

namespace Fleet

def sieve {Effect : Type → Type} [Monad Effect] {Item : Type} (test : Item → Effect Bool) :
    List Item → Effect (List Item)
  | [] => pure []
  | item :: rest => do
      let passed ← test item
      let others ← sieve test rest
      pure (if passed then item :: others else others)

variable {Effect : Type → Type} [Monad Effect] {Item : Type}

@[simp] theorem sieve_nil (test : Item → Effect Bool) : sieve test [] = pure [] := rfl

end Fleet
