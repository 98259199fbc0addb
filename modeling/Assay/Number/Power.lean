/-!
# Powers

A power whose exponent is a natural number is that of the core library. Where the algebra of
Mathlib is in scope it would be that of a monoid instead, and the text of a definition would
mean something else there than in the program.
-/

attribute [instance (1100), default_instance (10001)] instPowNat
