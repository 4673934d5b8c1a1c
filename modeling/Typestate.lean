import Typestate.Derive.Expansion
import Typestate.Proofs.Code.Automaton
import Typestate.Proofs.Code.MarkerOrder
import Typestate.Proofs.Code.ConstructorCall
import Typestate.Proofs.Code.Dependence
import Typestate.Proofs.Code.Overwriting
import Typestate.Proofs.Code.Scopes
import Typestate.Proofs.Code.Supplying
import Typestate.Proofs.Derive.Role
import Typestate.Proofs.Lattice.Duplicate
import Typestate.Proofs.Lattice.Identity
import Typestate.Proofs.Lattice.Limit
import Typestate.Proofs.Member.Arrangement
import Typestate.Proofs.Member.Name
import Typestate.Proofs.Target.Checks
import Typestate.Proofs.Target.Outcome
import Typestate.Proofs.Target.Texts
