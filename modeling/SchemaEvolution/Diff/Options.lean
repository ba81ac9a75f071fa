/-!
What a comparison takes into account.
-/

namespace SchemaEvolution.Diff

/-- By default the directives on definitions are left out of the comparison. -/
structure Options where
  enforceDirectives : Bool
  deriving DecidableEq, Repr

namespace Options

instance : Inhabited Options :=
  ⟨⟨false⟩⟩

def isDefault (options : Options) : Bool :=
  options == default

def enforcing : Options :=
  ⟨true⟩

end Options

end SchemaEvolution.Diff
