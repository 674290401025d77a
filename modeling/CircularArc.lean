import CircularArc.Arc.Numeric
import CircularArc.Arc.PointSet
import CircularArc.Binary64.Word
import CircularArc.Proofs.AngleEntries
import CircularArc.Proofs.ApproximateEquality
import CircularArc.Proofs.CenterPoints
import CircularArc.Proofs.Collapse
import CircularArc.Proofs.Complement
import CircularArc.Proofs.DirectedDistance
import CircularArc.Proofs.DistanceBound
import CircularArc.Proofs.DistanceRange
import CircularArc.Proofs.Growing
import CircularArc.Proofs.GuardedSession
import CircularArc.Proofs.MeasuredLength
import CircularArc.Proofs.MovedAccuracy
import CircularArc.Proofs.NearbyPoints
import CircularArc.Proofs.NestedIntersection
import CircularArc.Proofs.NumericResults
import CircularArc.Proofs.OppositePoints
import CircularArc.Proofs.PointGrowth
import CircularArc.Proofs.Projection
import CircularArc.Proofs.ShortestArc
import CircularArc.Proofs.Shrinking
import CircularArc.Proofs.SwappedUnion
import CircularArc.Proofs.Totality
import CircularArc.Proofs.ValidPairs
import CircularArc.Session.Guarded
