/-
Powers of natural numbers and integers are those of the core library, also
where algebra defines them for every monoid: a definition means the same
whatever is imported beside it.
-/

attribute [instance (high), default_instance (high + 1)] instPowNat
