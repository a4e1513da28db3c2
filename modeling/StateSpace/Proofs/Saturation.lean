import StateSpace.Proofs.ReachabilityGraph

/-!
# Naive saturation

The reachable states can also be found without a search: start with the initial states, add the targets of
all transitions of the states found so far, and repeat this until nothing is added. A round that adds
something adds a state that equals none before, so finitely many reachable states are saturated after as
many rounds. What is found then is exactly what is reachable, whatever the order of the transitions.
-/

namespace StateSpace

namespace Value

end Value

namespace TransitionSystem

variable {system : TransitionSystem Result}

end TransitionSystem

end StateSpace
