import SpaceQuery.Pool.Closing
import SpaceQuery.Thin.OsonRoundTrip
import SpaceQuery.Thin.ZoneRegions
import SpaceQuery.Thin.RowidText
import SpaceQuery.Thin.CursorCloses
import SpaceQuery.Thin.DuplicateColumns
import SpaceQuery.Thin.StatementRegions
import SpaceQuery.Editor.LineQueries
import SpaceQuery.Editor.CompositeEdit
import SpaceQuery.Session.InterruptPolicy
import SpaceQuery.Session.BatchLedger
import SpaceQuery.Session.InterruptedBatch
import SpaceQuery.Splitter.Conservation
import SpaceQuery.Splitter.SplitModes
import SpaceQuery.Script.CommentRemoval
import SpaceQuery.Runtime.TabCounts
import SpaceQuery.Runtime.ActivityLedger
import SpaceQuery.Thin.PointIndex
import SpaceQuery.Lease.Ownership
import SpaceQuery.Transfer.Delimited
import SpaceQuery.Transfer.Xml
import SpaceQuery.Lease.Retirement
import SpaceQuery.Lease.Preserved
import SpaceQuery.Script.RowidProjection
import SpaceQuery.Browse.GridMark
import SpaceQuery.Session.AutocommitValues
import SpaceQuery.Script.EditExpression
import SpaceQuery.Browse.GridSort
import SpaceQuery.Browse.QualifiedNames
