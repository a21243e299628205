import HandleCalculus.Access
import HandleCalculus.Binary.Format
import HandleCalculus.Binary.Shortest
import HandleCalculus.CallSite
import HandleCalculus.ClassGraph.Basic
import HandleCalculus.ClassGraph.Bootstrap
import HandleCalculus.ClassGraph.Decl
import HandleCalculus.ClassGraph.Members
import HandleCalculus.ClassGraph.Order
import HandleCalculus.ClassGraph.Resolution
import HandleCalculus.ClassGraph.Walk
import HandleCalculus.ClassName
import HandleCalculus.ClassTable
import HandleCalculus.CommandLine
import HandleCalculus.CompileOnce.Cache
import HandleCalculus.CompileOnce.Session
import HandleCalculus.CompileOnce.Threads
import HandleCalculus.Conversion
import HandleCalculus.Demo
import HandleCalculus.Error
import HandleCalculus.Event
import HandleCalculus.Flags
import HandleCalculus.Handle.Adapt
import HandleCalculus.Handle.Basic
import HandleCalculus.Handle.Combinators
import HandleCalculus.Handle.Equivalence
import HandleCalculus.Handle.Key
import HandleCalculus.Invocation
import HandleCalculus.Loader
import HandleCalculus.Loading
import HandleCalculus.Lookup
import HandleCalculus.Machine
import HandleCalculus.Main
import HandleCalculus.MemberCache
import HandleCalculus.Options
import HandleCalculus.Prim
import HandleCalculus.Proofs.CompileOnce
import HandleCalculus.Proofs.CompileSteps
import HandleCalculus.Proofs.CompileTable
import HandleCalculus.Proofs.Equivalence
import HandleCalculus.Proofs.LookupSteps
import HandleCalculus.Proofs.MemberCache
import HandleCalculus.Proofs.MemberNames
import HandleCalculus.Proofs.MemberUse
import HandleCalculus.Proofs.SiteHistory
import HandleCalculus.RefKind
import HandleCalculus.Scalar
import HandleCalculus.Script
import HandleCalculus.Shape
import HandleCalculus.Signature.Basic
import HandleCalculus.Signature.Edit
import HandleCalculus.Signature.Interning
import HandleCalculus.Signature.Pool
import HandleCalculus.Store
import HandleCalculus.Text.Hidden
import HandleCalculus.Text.Identity
import HandleCalculus.Text.Quoted
import HandleCalculus.Ty
import HandleCalculus.TypeName
import HandleCalculus.Value
import HandleCalculus.World
import HandleCalculus.Proofs.Assignability
import HandleCalculus.Proofs.ValueTyping
import HandleCalculus.Proofs.TypeSafety
import HandleCalculus.Proofs.DerivedLookups
import HandleCalculus.Proofs.Mediation
import HandleCalculus.Proofs.EquivalentCalls
import HandleCalculus.Proofs.CollectorMemory
import HandleCalculus.Proofs.ReceiverRestriction
import HandleCalculus.Proofs.ProtectedMembers
import HandleCalculus.Proofs.Dispatch
import HandleCalculus.Proofs.DefaultMethods
import HandleCalculus.Proofs.BoundReceivers
import HandleCalculus.Proofs.Unwinding
import HandleCalculus.Proofs.NodeWork
import HandleCalculus.Proofs.AdaptedCalls
import HandleCalculus.Proofs.ConversionReach
import HandleCalculus.Proofs.ReceiverNarrowing
import HandleCalculus.Proofs.MethodLaws
import HandleCalculus.Proofs.ReceiverLaw
import HandleCalculus.Proofs.ActivationTyping
import HandleCalculus.Proofs.ReceiverSafety
import HandleCalculus.Proofs.AdaptedDispatch
import HandleCalculus.Proofs.LoaderAncestry
import HandleCalculus.Proofs.LogBlindness
import HandleCalculus.Proofs.DirectCalls
import HandleCalculus.Proofs.CompileWaits
import HandleCalculus.Proofs.CachedDispatch
import HandleCalculus.Proofs.FieldOffsets
import HandleCalculus.Proofs.FieldSlots
import HandleCalculus.Proofs.GenericCalls
import HandleCalculus.Proofs.CompileProgress
import HandleCalculus.Proofs.ReflectedMembers
import HandleCalculus.Proofs.EquivalentMakings
import HandleCalculus.Proofs.SiteLinking
import HandleCalculus.Proofs.SignatureInterning
import HandleCalculus.Proofs.LoaderDelegation
import HandleCalculus.Proofs.ClassSearch
import HandleCalculus.Proofs.PermutedCalls
import HandleCalculus.Proofs.EnoughDepth
import HandleCalculus.Proofs.DroppedArguments
import HandleCalculus.Proofs.CollectedArguments
import HandleCalculus.Proofs.SpreadArrays
import HandleCalculus.Proofs.RenumberedCalls
import HandleCalculus.Proofs.RenumberedScripts
import HandleCalculus.Proofs.InPlaceSwaps
import HandleCalculus.Proofs.SignatureLaws
import HandleCalculus.Proofs.ConversionSoundness
import HandleCalculus.Viewing
import HandleCalculus.Proofs.TakingTurns
import HandleCalculus.Proofs.InterleavedViews
import HandleCalculus.Proofs.VariableArity
import HandleCalculus.Proofs.TypeOrder
import HandleCalculus.Proofs.PackagePrivate
import HandleCalculus.Proofs.NestMates
import HandleCalculus.Sharing
import HandleCalculus.Proofs.SharedHandles
import HandleCalculus.Proofs.FoundMembers
